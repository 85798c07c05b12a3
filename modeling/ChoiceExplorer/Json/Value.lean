import ChoiceExplorer.Json.Tree

/-!
# JSON values

A value is a tree all of whose numbers are in range and all of whose strings
can be read, with at most 127 arrays and objects inside one another.
-/

namespace ChoiceExplorer.Json

/-- A JSON value; members are in the order of the text and may repeat keys. -/
inductive Value where
  | null
  | bool (value : Bool)
  | number (value : Number)
  | string (text : String)
  | array (items : List Value)
  | object (members : List (String × Value))

namespace Tree

/-- How many arrays and objects may stand inside one another. -/
def depthLimit : Nat := 127

mutual

/-- The value of a tree that may still be so deep. -/
def value? : Nat → Tree → Option Value
  | _, .null => some .null
  | _, .bool value => some (.bool value)
  | _, .number literal => literal.number?.map .number
  | _, .string content => content.map .string
  | 0, .array _ => none
  | depth + 1, .array items => (values? depth items).map .array
  | 0, .object _ => none
  | depth + 1, .object members => (memberValues? depth members).map .object

def values? : Nat → List Tree → Option (List Value)
  | _, [] => some []
  | depth, item :: rest => do
      let item ← value? depth item
      let rest ← values? depth rest
      some (item :: rest)

def memberValues? : Nat → List (Option String × Tree) → Option (List (String × Value))
  | _, [] => some []
  | depth, (key, tree) :: rest => do
      let key ← key
      let value ← value? depth tree
      let rest ← memberValues? depth rest
      some ((key, value) :: rest)

end

end Tree

namespace Value

def parse? (text : String) : Option Value := do
  let tree ← Tree.parse? text
  tree.value? Tree.depthLimit

end Value

end ChoiceExplorer.Json
