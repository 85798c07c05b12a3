import ChoiceExplorer.Config.Basic
import ChoiceExplorer.Text.Blank
import ChoiceExplorer.Text.Decimal
import ChoiceExplorer.Warning

/-!
# Typed look-ups

A look-up of a typed option never fails: a missing value gives the default, and
a malformed one gives the default with a warning.
-/

namespace ChoiceExplorer

/-- A result with the warnings met on the way to it, in order. -/
structure Warned (α : Type) where
  value : α
  warnings : List Warning := []

namespace Config

def isSeparator (char : Char) : Bool := char == ',' || char == ';' || Text.isBlank char

def listItems (text : String) : List String :=
  (Text.runs isSeparator text.toList).map String.ofList

/-- The items under a key, none without a value there. -/
def list? (config : Config) (key : String) : Option (List String) :=
  (config.get? key).map listItems

def truth? (text : String) : Option Bool :=
  let word := String.ofList ((Text.trim text.toList).map Char.toLower)
  if ["true", "yes", "on"].contains word then some true
  else if ["false", "no", "off"].contains word then some false
  else none

def bool (config : Config) (key : String) (default : Bool) : Warned Bool :=
  match config.get? key with
  | none => ⟨default, []⟩
  | some text =>
      match truth? text with
      | some value => ⟨value, []⟩
      | none => ⟨default, [.malformedBoolean key text default]⟩

def parsed {α : Type} (config : Config) (key : String) (default : α)
    (parse : List Char → Option α) : Warned α :=
  match config.get? key with
  | none => ⟨default, []⟩
  | some text =>
      match parse (Text.trim text.toList) with
      | some value => ⟨value, []⟩
      | none => ⟨default, [.malformedValue key text]⟩

def int (config : Config) (key : String) (default : Int) : Warned Int :=
  config.parsed key default Text.signed?

def unsigned (config : Config) (key : String) (default : Nat) : Warned Nat :=
  config.parsed key default Text.unsigned?

end Config

end ChoiceExplorer
