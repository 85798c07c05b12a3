import ChoiceExplorer.Json.Tree

/-!
# Decoding JSON trees

Readers for the parts of records.  Types are not converted into one another,
except that a floating-point number may be written as a whole one.  A part that
no reader asks for may hold anything.
-/

namespace ChoiceExplorer.Json.Tree

open Floating (Double Single)

def text? : Tree → Option String
  | string content => content
  | _ => none

def bool? : Tree → Option Bool
  | bool value => some value
  | _ => none

/-- A whole number, written as one. -/
def integer? : Tree → Option Int
  | number literal => literal.integer?
  | _ => none

def natural? (bound : Nat) (tree : Tree) : Option Nat :=
  match tree.integer? with
  | some value => if 0 ≤ value ∧ value < bound then some value.toNat else none
  | none => none

def long? (tree : Tree) : Option Int :=
  tree.integer?.filter fun value => -Int.pow 2 63 ≤ value && value < Int.pow 2 63

def double? : Tree → Option Double
  | number literal =>
      match literal.number? with
      | some (.integer value) =>
          let magnitude := Double.ofQuotient value.natAbs 1
          some (if value < 0 then magnitude.neg else magnitude)
      | some (.double value) => some value
      | none => none
  | _ => none

/-- A single; a number written with a fraction or an exponent is rounded by way of a double. -/
def single? : Tree → Option Single
  | number literal =>
      match literal.number? with
      | some (.integer value) =>
          let magnitude := Single.ofQuotient value.natAbs 1
          some (if value < 0 then magnitude.neg else magnitude)
      | some (.double value) => some (Single.ofDouble value)
      | none => none
  | _ => none

def nullable? {α : Type} (read : Tree → Option α) : Tree → Option (Option α)
  | null => some none
  | tree => (read tree).map some

def list? {α : Type} (read : Tree → Option α) : Tree → Option (List α)
  | array items => items.mapM read
  | _ => none

def variant? : Tree → Option (String × Tree)
  | object [(some name, content)] => some (name, content)
  | _ => none

def name? (tree : Tree) : Option String :=
  match tree with
  | string content => content
  | _ =>
      match tree.variant? with
      | some (name, null) => some name
      | _ => none

def valuesOf (key : String) (members : List (Option String × Tree)) : List Tree :=
  members.filterMap fun (name, value) => if name = some key then some value else none

/-- The value of a field, which must not be repeated. -/
def field? (members : List (Option String × Tree)) (key : String) : Option (Option Tree) :=
  match valuesOf key members with
  | [] => some none
  | [value] => some (some value)
  | _ => none

/--
The fields of a record, each perhaps missing: the members of an object with
these keys, or the items of an array in this order.
-/
def fields? (keys : List String) : Tree → Option (List (Option Tree))
  | object members =>
      if members.all fun member => member.1.isSome then keys.mapM (field? members) else none
  | array items =>
      if items.length ≤ keys.length then
        some (items.map some ++ List.replicate (keys.length - items.length) none)
      else none
  | _ => none

def required {α : Type} (read : Tree → Option α) : Option Tree → Option α
  | none => none
  | some tree => read tree

def withDefault {α : Type} (default : α) (read : Tree → Option α) : Option Tree → Option α
  | none => some default
  | some tree => read tree

end ChoiceExplorer.Json.Tree
