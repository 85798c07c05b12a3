import ChoiceExplorer.Config.Basic
import ChoiceExplorer.Json.Value

/-!
# Configuration from JSON

A flat JSON object is a configuration: strings are stored as they are, truth
values and numbers as their JSON text, arrays as their items joined by commas,
and nulls are left out.  Members are looked at in the order of their keys, the
last of several with one key counting.
-/

namespace ChoiceExplorer.Config

def scalarText? : Json.Value → Option String
  | .string text => some text
  | .bool value => some (toString value)
  | .number value => some value.text
  | _ => none

/-- The texts of items, if all of them have one. -/
def scalarTexts? : List Json.Value → Option (List String)
  | [] => some []
  | item :: rest => do
      let text ← scalarText? item
      let texts ← scalarTexts? rest
      some (text :: texts)

inductive Stored where
  | nothing
  | text (text : String)
  | nested
  deriving DecidableEq

def stored : Json.Value → Stored
  | .null => .nothing
  | .array items =>
      match scalarTexts? items with
      | none => .nested
      | some texts => .text (",".intercalate texts)
  | value =>
      match scalarText? value with
      | none => .nested
      | some text => .text text

def storeMembers : Config → List (String × Json.Value) → Except Error Config
  | config, [] => .ok config
  | config, (key, value) :: rest =>
      match stored value with
      | .nothing => storeMembers config rest
      | .text text => storeMembers (config.insert key text) rest
      | .nested => .error (.nestedValue key)

def ofJson : Json.Value → Except Error Config
  | .object members => storeMembers .empty (Table.ofList members).entries
  | _ => .error .notAnObject

def ofJsonText (text : String) : Except Error Config :=
  match Json.Value.parse? text with
  | none => .error .json
  | some value => ofJson value

end ChoiceExplorer.Config
