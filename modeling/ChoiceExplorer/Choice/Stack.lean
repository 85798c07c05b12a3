import ChoiceExplorer.Choice.Generator

/-!
# The stack of choices

The generators committed to on the current path.  They are kept newest first,
where the search works, and listed oldest first, as the path runs.
-/

namespace ChoiceExplorer

structure ChoiceStack where
  newestFirst : List Generator := []
  deriving DecidableEq

namespace ChoiceStack

def empty : ChoiceStack := {}

/-- The generators of the path, oldest first. -/
def toList (stack : ChoiceStack) : List Generator := stack.newestFirst.reverse

def depth (stack : ChoiceStack) : Nat := stack.newestFirst.length

@[simp] theorem length_toList (stack : ChoiceStack) : stack.toList.length = stack.depth := by
  simp [toList, depth]

def push (stack : ChoiceStack) (generator : Generator) : ChoiceStack :=
  ⟨generator :: stack.newestFirst⟩

@[simp] theorem toList_push (stack : ChoiceStack) (generator : Generator) :
    (stack.push generator).toList = stack.toList ++ [generator] := by
  simp [toList, push]

def pop? (stack : ChoiceStack) : Option (Generator × ChoiceStack) :=
  match stack.newestFirst with
  | [] => none
  | newest :: rest => some (newest, ⟨rest⟩)

def top? (stack : ChoiceStack) : Option Generator := stack.newestFirst.head?

/-- The generator at a depth, counted from the oldest. -/
def get? (stack : ChoiceStack) (depth : Nat) : Option Generator := stack.toList[depth]?

def modifyTop (stack : ChoiceStack) (change : Generator → Generator) : ChoiceStack :=
  match stack.newestFirst with
  | [] => stack
  | newest :: rest => ⟨change newest :: rest⟩

def modify (stack : ChoiceStack) (depth : Nat) (change : Generator → Generator) : ChoiceStack :=
  ⟨(stack.toList.modify depth change).reverse⟩

/-- Drop the newest generators that have no alternative left and advance the next one. -/
def advanceNewest? : List Generator → Option (List Generator)
  | [] => none
  | newest :: older =>
      if newest.hasMore then some (newest.advance :: older) else advanceNewest? older

theorem advanceNewest?_eq_none_iff {generators : List Generator} :
    advanceNewest? generators = none ↔ ∀ generator ∈ generators, generator.hasMore = false := by
  induction generators with
  | nil => simp [advanceNewest?]
  | cons newest older ih =>
      cases h : newest.hasMore with
      | true => simp [advanceNewest?, h]
      | false => simp [advanceNewest?, h, ih]

/-- Turn to the next path; none when every alternative has been taken. -/
def next? (stack : ChoiceStack) : Option ChoiceStack :=
  (advanceNewest? stack.newestFirst).map .mk

def texts (stack : ChoiceStack) : List String := stack.toList.map Generator.text

end ChoiceStack

end ChoiceExplorer
