import ChoiceExplorer.Choice.Value

/-!
# Alternatives of a choice point

The alternatives are a finite sequence of values of one sort: the two truth
values, a list, or the whole numbers met by walking an interval with a fixed
step.  An interval is never expanded; its terms are computed from their
positions.
-/

namespace ChoiceExplorer

open Floating (Double Single)

/-- The whole numbers from `min` to `max`, walked with a step that is not zero. -/
structure Interval where
  min : Int
  max : Int
  step : Int
  step_ne_zero : step ≠ 0 := by decide
  deriving DecidableEq

namespace Interval

/-- An interval walked by `step`, where zero is read as one. -/
def ofStep (min max step : Int) : Interval :=
  if h : step = 0 then ⟨min, max, 1, by decide⟩ else ⟨min, max, step, h⟩

/-- A rising walk starts at the lower end, a falling one at the upper. -/
def start (interval : Interval) : Int :=
  if 0 < interval.step then interval.min else interval.max

def size (interval : Interval) : Nat :=
  if interval.max < interval.min then 0
  else (interval.max - interval.min).toNat / interval.step.natAbs + 1

/-- The term at a position, whether or not it still lies in the interval. -/
def term (interval : Interval) (position : Int) : Int :=
  interval.start + position * interval.step

def terms (interval : Interval) : List Int :=
  (List.range interval.size).map fun (position : Nat) => interval.term position

end Interval

inductive Alternatives where
  | booleans
  | ints (values : List Int)
  | interval (bounds : Interval)
  | longs (values : List Int)
  | doubles (values : List Double)
  | floats (values : List Single)
  | threads (listed : List Thread)
  deriving DecidableEq

namespace Alternatives

def kind : Alternatives → Kind
  | booleans => .boolean
  | ints _ => .intSet
  | interval _ => .intInterval
  | longs _ => .longList
  | doubles _ => .doubleList
  | floats _ => .floatList
  | threads _ => .threadSet

def size : Alternatives → Nat
  | booleans => 2
  | ints values => values.length
  | interval bounds => bounds.size
  | longs values => values.length
  | doubles values => values.length
  | floats values => values.length
  | threads listed => listed.length

def get? (alternatives : Alternatives) (position : Nat) : Option Value :=
  match alternatives with
  | booleans => [false, true][position]?.map .bool
  | ints values => values[position]?.map .int
  | interval bounds =>
      if position < bounds.size then some (.int (bounds.term position)) else none
  | longs values => values[position]?.map .long
  | doubles values => values[position]?.map .double
  | floats values => values[position]?.map .float
  | threads listed => listed[position]?.map .thread

def toList : Alternatives → List Value
  | booleans => [.bool false, .bool true]
  | ints values => values.map .int
  | interval bounds => bounds.terms.map .int
  | longs values => values.map .long
  | doubles values => values.map .double
  | floats values => values.map .float
  | threads listed => listed.map .thread

@[simp] theorem length_toList (alternatives : Alternatives) :
    alternatives.toList.length = alternatives.size := by
  cases alternatives <;> simp [toList, size, Interval.terms]

theorem getElem?_toList (alternatives : Alternatives) (position : Nat) :
    alternatives.toList[position]? = alternatives.get? position := by
  cases alternatives with
  | booleans => rcases position with _ | _ | position <;> rfl
  | interval bounds =>
      by_cases h : position < bounds.size <;> simp [toList, get?, Interval.terms, h]
  | _ => simp [toList, get?]

theorem get?_isSome (alternatives : Alternatives) (position : Nat) :
    (alternatives.get? position).isSome = decide (position < alternatives.size) := by
  rw [← getElem?_toList, ← length_toList, Bool.eq_iff_iff]
  simp

/-- What a choice call gives when the search can give it no alternative. -/
def fallback : Alternatives → Value
  | booleans => .bool false
  | ints values => .int (values.headD 0)
  | interval bounds => .int bounds.min
  | longs values => .long (values.headD 0)
  | doubles values => .double (values.headD Double.zero)
  | floats values => .float (values.headD Single.zero)
  | threads listed => .thread (listed.headD ⟨0, ""⟩)

end Alternatives

end ChoiceExplorer
