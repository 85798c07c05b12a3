import ChoiceExplorer.Choice.Generator

/-!
# Walks in words

A walk through an interval that knows its current term only, and holds it in a word of 64
bits.  What it computes on the way is held in words of 64 or 128 bits, and it stops where a
number is too large for its word.
-/

namespace ChoiceExplorer

namespace Generator

inductive Act where
  | advance
  | retire
  | locate (location : String)
  deriving DecidableEq

def act (generator : Generator) : Act → Generator
  | .advance => generator.advance
  | .retire => generator.retire
  | .locate location => generator.locate location

/-- All that a caller can ask for. -/
structure View where
  id : String
  value : Option Value
  more : Bool
  retired : Bool
  location : Option String
  total : Nat
  processed : Nat
  deriving DecidableEq

def view (generator : Generator) : View where
  id := generator.id
  value := generator.value?
  more := generator.hasMore
  retired := generator.retired
  location := generator.location
  total := generator.total
  processed := generator.processed

end Generator

/-- How many numbers from zero on a word of 64 bits holds; as many below zero. -/
def wordReach : Nat := UInt64.size / 2

def longReach : Nat := UInt64.size * UInt64.size / 2

def held? (reach : Nat) (number : Int) : Option Int :=
  if -(reach : Int) ≤ number ∧ number < reach then some number else none

/-- The largest count stands for all numbers that are no count in a word of 64 bits. -/
def saturated (count : Int) : Nat :=
  if 0 ≤ count ∧ count < UInt64.size then count.toNat else Generator.countLimit

/-- A walk through an interval that knows its current term only. -/
structure WordWalk where
  id : String
  bounds : Interval
  current : Option Int := none
  retired : Bool := false
  location : Option String := none

namespace WordWalk

/-- The term behind a term, if a word can hold it and it still lies in the interval. -/
def successor? (walk : WordWalk) (current : Int) : Option Int :=
  (held? wordReach (current + walk.bounds.step)).filter fun next =>
    walk.bounds.min ≤ next && next ≤ walk.bounds.max

def next? (walk : WordWalk) : Option Int :=
  match walk.current with
  | none => some walk.bounds.start
  | some current => walk.successor? current

def hasMore (walk : WordWalk) : Bool :=
  !walk.retired && !decide (walk.bounds.max < walk.bounds.min) && walk.next?.isSome

def act (walk : WordWalk) : Generator.Act → WordWalk
  | .advance => if walk.hasMore then { walk with current := walk.next? } else walk
  | .retire => { walk with retired := true }
  | .locate location => { walk with location := some location }

/-- How many terms there are on the way, none if a word of 128 bits cannot hold what is computed. -/
def count? (first last stride : Int) : Option Nat :=
  (held? longReach (last - first)).bind fun span =>
    (held? longReach (span.tdiv stride)).bind fun steps =>
      (held? longReach (steps + 1)).map saturated

def total? (walk : WordWalk) : Option Nat :=
  if walk.bounds.max < walk.bounds.min then some 0
  else (held? longReach walk.bounds.step.natAbs).bind (count? walk.bounds.min walk.bounds.max)

def processed? (walk : WordWalk) : Option Nat :=
  match walk.current with
  | none => some 0
  | some current => count? walk.bounds.start current walk.bounds.step

/-- What a walk answers, none if a number on the way to it is too large for its word. -/
def view? (walk : WordWalk) : Option Generator.View :=
  walk.total?.bind fun total =>
    walk.processed?.map fun processed =>
      { id := walk.id
        value := walk.current.map .int
        more := walk.hasMore
        retired := walk.retired
        location := walk.location
        total
        processed }

end WordWalk

end ChoiceExplorer
