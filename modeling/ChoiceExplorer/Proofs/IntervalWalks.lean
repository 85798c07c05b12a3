import Mathlib.Tactic.NormNum
import Mathlib.Tactic.SplitIfs
import ChoiceExplorer.Choice.WordWalk
import ChoiceExplorer.Proofs.Offers

/-!
# Walks through intervals

A generator over an interval does what the generator over the list of its terms does, call
for call.  So does a walk that knows its current term only, holds it in a word of 64 bits and
counts in words of 128 bits: no number on its way is too large for its word.
-/

namespace ChoiceExplorer

theorem held?_word (number : Int) :
    held? wordReach number = if -2 ^ 63 ≤ number ∧ number < 2 ^ 63 then some number else none := by
  have reach : wordReach = 2 ^ 63 := rfl
  rw [held?, reach]
  rfl

/-- A word of 128 bits holds what is at most twice as far from zero as a word of 64 bits reaches. -/
theorem held?_long {number : Int} (le : -2 ^ 64 ≤ number) (lt : number ≤ 2 ^ 64) :
    held? longReach number = some number := by
  have reach : longReach = 2 ^ 127 := by
    unfold longReach
    norm_num
  unfold held?
  rw [reach]
  exact if_pos ⟨by omega, by omega⟩

theorem saturated_natCast (count : Nat) : saturated count = min count (2 ^ 64 - 1) := by
  have limit : Generator.countLimit = 2 ^ 64 - 1 := rfl
  have size : UInt64.size = 2 ^ 64 := rfl
  unfold saturated
  rw [limit, size]
  split <;> omega

namespace Interval

/--
The list of all terms between two bounds of a progression, which starts at the lower bound
with a positive step and at the upper one with a negative; zero is read as one.
-/
def IsProgression (min max delta : Int) (values : List Int) : Prop :=
  let step := if delta = 0 then 1 else delta
  let start := if 0 < step then min else max
  ∀ position : Nat, values[position]? =
    let term := start + position * step
    if min ≤ term ∧ term ≤ max then some term else none

theorem getElem?_terms (interval : Interval) (position : Nat) :
    interval.terms[position]? =
      if interval.min ≤ interval.term position ∧ interval.term position ≤ interval.max then
        some (interval.term position) else none := by
  unfold terms
  by_cases inside : position < interval.size
  · rw [if_pos ((interval.lt_size_iff position).mp inside)]
    simp [inside]
  · rw [if_neg (mt (interval.lt_size_iff position).mpr inside)]
    simp [inside]

/-- The terms of an interval are those of the progression through it. -/
theorem isProgression_terms (min max delta : Int) :
    IsProgression min max delta (ofStep min max delta).terms := by
  intro position
  rw [getElem?_terms]
  by_cases zero : delta = 0
  · simp only [ofStep, dif_pos zero, if_pos zero, term, start]
  · simp only [ofStep, dif_neg zero, if_neg zero, term, start]

theorem term_succ (interval : Interval) (position : Nat) :
    interval.term (position + 1 : Nat) = interval.term position + interval.step := by
  unfold term
  rw [Int.natCast_succ, Int.add_mul, Int.one_mul, Int.add_assoc]

end Interval

namespace Generator

/-- Two generators that stand at the same place of the same values. -/
structure Parallels (first second : Generator) : Prop where
  id : first.id = second.id
  values : first.alternatives.toList = second.alternatives.toList
  taken : first.taken = second.taken
  retired : first.retired = second.retired
  location : first.location = second.location

namespace Parallels

variable {first second : Generator}

theorem size (parallels : Parallels first second) :
    first.alternatives.size = second.alternatives.size := by
  rw [← Alternatives.length_toList, ← Alternatives.length_toList, parallels.values]

theorem value? (parallels : Parallels first second) : first.value? = second.value? := by
  unfold Generator.value?
  rw [parallels.taken]
  cases second.taken with
  | zero => rfl
  | succ before => simp only [← Alternatives.getElem?_toList, parallels.values]

theorem hasMore (parallels : Parallels first second) : first.hasMore = second.hasMore := by
  rw [Generator.hasMore, Generator.hasMore, parallels.retired, parallels.taken, parallels.size]

theorem view (parallels : Parallels first second) : first.view = second.view := by
  rw [Generator.view, Generator.view, total, total, processed, processed, parallels.id,
    parallels.value?, parallels.hasMore, parallels.retired, parallels.location, parallels.size,
    parallels.taken]

theorem act (parallels : Parallels first second) (act : Act) :
    Parallels (first.act act) (second.act act) := by
  cases act with
  | advance =>
      simp only [Generator.act, advance, parallels.hasMore]
      split
      · exact { parallels with taken := congrArg (· + 1) parallels.taken }
      · exact parallels
  | retire => exact { parallels with retired := rfl }
  | locate location => exact { parallels with location := rfl }

theorem acts (parallels : Parallels first second) (acts : List Act) :
    Parallels (acts.foldl Generator.act first) (acts.foldl Generator.act second) := by
  induction acts generalizing first second with
  | nil => exact parallels
  | cons act rest ih => exact ih (parallels.act act)

end Parallels

end Generator

namespace WordWalk

theorem bounds_act (walk : WordWalk) (act : Generator.Act) :
    (walk.act act).bounds = walk.bounds := by
  cases act with
  | advance =>
      rw [WordWalk.act]
      split <;> rfl
  | retire => rfl
  | locate location => rfl

/-- The bounds and the step fit into words of 64 bits. -/
structure Fits (bounds : Interval) : Prop where
  le_min : -2 ^ 63 ≤ bounds.min
  min_lt : bounds.min < 2 ^ 63
  le_max : -2 ^ 63 ≤ bounds.max
  max_lt : bounds.max < 2 ^ 63
  le_step : -2 ^ 63 ≤ bounds.step
  step_lt : bounds.step < 2 ^ 63

theorem fits_ofStep (min max delta : Int64) :
    Fits (.ofStep min.toInt max.toInt delta.toInt) := by
  have least : (-2 ^ 63 : Int) ≤ 1 := by decide
  have most : (1 : Int) < 2 ^ 63 := by decide
  unfold Interval.ofStep
  split
  · exact ⟨min.le_toInt, min.toInt_lt, max.le_toInt, max.toInt_lt, least, most⟩
  · exact ⟨min.le_toInt, min.toInt_lt, max.le_toInt, max.toInt_lt, delta.le_toInt, delta.toInt_lt⟩

def reached (bounds : Interval) : Nat → Option Int
  | 0 => none
  | before + 1 => some (bounds.term before)

/-- A walk stands where a generator over its interval stands. -/
structure Follows (walk : WordWalk) (generator : Generator) : Prop where
  id : walk.id = generator.id
  bounds : generator.alternatives = .interval walk.bounds
  current : walk.current = reached walk.bounds generator.taken
  retired : walk.retired = generator.retired
  location : walk.location = generator.location

/-- Counting the terms from the first one to the one at a position. -/
theorem count?_eq {first last stride : Int} {steps : Nat} (le : -2 ^ 64 < last - first)
    (lt : last - first < 2 ^ 64) (divided : (last - first).tdiv stride = steps)
    (below : steps < 2 ^ 64) : count? first last stride = some (min (steps + 1) (2 ^ 64 - 1)) := by
  have span : held? longReach (last - first) = some (last - first) :=
    held?_long (by omega) (by omega)
  have quotient : held? longReach (steps : Int) = some (steps : Int) :=
    held?_long (by omega) (by omega)
  have count : held? longReach (steps + 1) = some ((steps + 1 : Nat) : Int) :=
    held?_long (by omega) (by omega)
  rw [count?, span, Option.bind_some, divided, quotient, Option.bind_some, count,
    Option.map_some, saturated_natCast]

section Bounds

variable {walk : WordWalk} (fits : Fits walk.bounds)
include fits

/-- What a word of 64 bits cannot hold does not lie in the interval. -/
theorem successor?_eq (current : Int) :
    walk.successor? current =
      if walk.bounds.min ≤ current + walk.bounds.step ∧
          current + walk.bounds.step ≤ walk.bounds.max then
        some (current + walk.bounds.step) else none := by
  have lower := fits.le_min
  have upper := fits.max_lt
  rw [successor?, held?_word]
  split_ifs with holds inside inside
  · rw [Option.filter_some, if_pos (by simpa using inside)]
  · rw [Option.filter_some, if_neg (by simpa using inside)]
  · omega
  · rfl

theorem successor?_term (position : Nat) :
    walk.successor? (walk.bounds.term position) =
      if position + 1 < walk.bounds.size then some (walk.bounds.term (position + 1 : Nat))
      else none := by
  rw [successor?_eq fits, ← Interval.term_succ]
  exact if_congr (walk.bounds.lt_size_iff (position + 1)).symm rfl rfl

/-- The next term is the one behind those taken. -/
theorem next?_eq {taken : Nat} (current : walk.current = reached walk.bounds taken)
    (ordered : ¬walk.bounds.max < walk.bounds.min) :
    walk.next? = if taken < walk.bounds.size then reached walk.bounds (taken + 1) else none := by
  rw [next?, current]
  cases taken with
  | zero =>
      have nonempty : 0 < walk.bounds.size := by
        rw [Interval.size, if_neg ordered]
        exact Nat.succ_pos _
      simp [reached, nonempty, Interval.term]
  | succ before => exact successor?_term fits before

theorem size_le : walk.bounds.size ≤ 2 ^ 64 := by
  have steps := Nat.div_le_self (walk.bounds.max - walk.bounds.min).toNat walk.bounds.step.natAbs
  have lower := fits.le_min
  have upper := fits.max_lt
  unfold Interval.size
  split <;> omega

theorem total?_eq : walk.total? = some (min walk.bounds.size (2 ^ 64 - 1)) := by
  have lower := fits.le_min
  have upper := fits.max_lt
  have leStep := fits.le_step
  have stepLt := fits.step_lt
  unfold total? Interval.size
  split
  · rfl
  · rename_i ordered
    have stride : held? longReach walk.bounds.step.natAbs = some (walk.bounds.step.natAbs : Int) :=
      held?_long (by omega) (by omega)
    have divided : (walk.bounds.max - walk.bounds.min).tdiv walk.bounds.step.natAbs =
        ((walk.bounds.max - walk.bounds.min).toNat / walk.bounds.step.natAbs : Nat) := by
      rw [Int.tdiv_eq_ediv_of_nonneg (by omega), Int.natCast_ediv, Int.toNat_of_nonneg (by omega)]
    have steps := Nat.div_le_self (walk.bounds.max - walk.bounds.min).toNat walk.bounds.step.natAbs
    rw [stride, Option.bind_some]
    exact count?_eq (by omega) (by omega) divided (by omega)

theorem processed?_eq {taken : Nat} (current : walk.current = reached walk.bounds taken)
    (le : taken ≤ walk.bounds.size) : walk.processed? = some (min taken (2 ^ 64 - 1)) := by
  rw [processed?, current]
  cases taken with
  | zero => rfl
  | succ before =>
      have inside := Interval.within_of_lt (Nat.lt_of_succ_le le)
      have lower := fits.le_min
      have upper := fits.max_lt
      have walked : walk.bounds.term before - walk.bounds.start = before * walk.bounds.step := by
        unfold Interval.term
        omega
      have divided : (walk.bounds.term before - walk.bounds.start).tdiv walk.bounds.step = before := by
        rw [walked, Int.mul_tdiv_cancel _ walk.bounds.step_ne_zero]
      -- The start is one of the bounds, so what is walked is no longer than the interval.
      have most := size_le fits
      have begins : walk.bounds.start = walk.bounds.min ∨ walk.bounds.start = walk.bounds.max := by
        unfold Interval.start
        split
        · exact .inl rfl
        · exact .inr rfl
      exact count?_eq (by omega) (by omega) divided (by omega)

end Bounds

namespace Follows

variable {walk : WordWalk} {generator : Generator}

theorem taken_le (follows : Follows walk generator) :
    generator.taken ≤ walk.bounds.size := by
  have le := generator.taken_le
  rwa [follows.bounds] at le

theorem value? (follows : Follows walk generator) :
    generator.value? = walk.current.map .int := by
  have le := follows.taken_le
  rw [follows.current, Generator.value?, follows.bounds]
  cases taken : generator.taken with
  | zero => rfl
  | succ before =>
      rw [taken] at le
      exact if_pos le

theorem size_eq (follows : Follows walk generator) :
    generator.alternatives.size = walk.bounds.size := by
  rw [follows.bounds]
  rfl

/-- As long as a term is left, the interval is not empty. -/
theorem left (follows : Follows walk generator) (more : generator.hasMore = true) :
    generator.taken < walk.bounds.size ∧ ¬walk.bounds.max < walk.bounds.min := by
  rw [Generator.hasMore, follows.size_eq] at more
  have lt : generator.taken < walk.bounds.size := of_decide_eq_true (Bool.and_eq_true_iff.mp more).2
  refine ⟨lt, ?_⟩
  intro empty
  rw [Interval.size, if_pos empty] at lt
  exact Nat.not_lt_zero _ lt

theorem hasMore (follows : Follows walk generator) (fits : Fits walk.bounds) :
    walk.hasMore = generator.hasMore := by
  rw [WordWalk.hasMore, Generator.hasMore, follows.retired, follows.size_eq, Bool.and_assoc]
  congr 1
  -- In an empty interval the walk would give its start, so the bounds are compared first.
  by_cases empty : walk.bounds.max < walk.bounds.min
  · have none_left : walk.bounds.size = 0 := if_pos empty
    simp [empty, none_left]
  · rw [next?_eq fits follows.current empty]
    split
    · rename_i lt
      simp [empty, lt, reached]
    · rename_i ge
      simp [ge]

theorem act (follows : Follows walk generator) (fits : Fits walk.bounds) (act : Generator.Act) :
    Follows (walk.act act) (generator.act act) := by
  cases act with
  | advance =>
      simp only [WordWalk.act, Generator.act, Generator.advance, follows.hasMore fits]
      split
      · rename_i more
        obtain ⟨lt, ordered⟩ := follows.left more
        refine { follows with current := ?_ }
        rw [next?_eq fits follows.current ordered, if_pos lt]
      · exact follows
  | retire => exact { follows with retired := rfl }
  | locate location => exact { follows with location := rfl }

/-- The walk and the generator stay together through any calls. -/
theorem acts (follows : Follows walk generator) (fits : Fits walk.bounds)
    (acts : List Generator.Act) :
    Follows (acts.foldl WordWalk.act walk) (acts.foldl Generator.act generator) ∧
      (acts.foldl WordWalk.act walk).bounds = walk.bounds := by
  induction acts generalizing walk generator with
  | nil => exact ⟨follows, rfl⟩
  | cons act rest ih =>
      have kept := bounds_act walk act
      obtain ⟨together, bounds⟩ := ih (follows.act fits act) (kept ▸ fits)
      exact ⟨together, bounds.trans kept⟩

theorem view? (follows : Follows walk generator) (fits : Fits walk.bounds) :
    walk.view? = some generator.view := by
  have total : walk.total? = some generator.total := by
    rw [total?_eq fits, Generator.total, follows.size_eq]
    rfl
  have processed : walk.processed? = some generator.processed :=
    processed?_eq fits follows.current follows.taken_le
  rw [WordWalk.view?, total, Option.bind_some, processed, Option.map_some, Generator.view,
    follows.value?, follows.hasMore fits, follows.id, follows.retired, follows.location]

/-- A word of 64 bits holds the current term, which lies in the interval. -/
theorem current_held (follows : Follows walk generator) (fits : Fits walk.bounds) :
    walk.current.bind (held? wordReach) = walk.current := by
  have le := follows.taken_le
  rw [follows.current]
  cases taken : generator.taken with
  | zero => rfl
  | succ before =>
      rw [taken] at le
      obtain ⟨lower, upper⟩ := Interval.within_of_lt le
      exact (held?_word _).trans
        (if_pos ⟨Int.le_trans fits.le_min lower, Int.lt_of_le_of_lt upper fits.max_lt⟩)

end Follows

end WordWalk

def Generator.called (generator : Generator) (acts : List Generator.Act) : Generator :=
  acts.foldl Generator.act generator

def WordWalk.called (walk : WordWalk) (acts : List Generator.Act) : WordWalk :=
  acts.foldl WordWalk.act walk

def Interval.ofWords (min max delta : Int64) : Interval :=
  .ofStep min.toInt max.toInt delta.toInt

/--
A walk in words and generators over an interval and over a list answer alike.  The counts are
those of the list, up to the largest that fits into a word of 64 bits, and so does the term.
-/
structure AnswerAlike (walk : WordWalk) (interval list : Generator) : Prop where
  views : interval.view = list.view
  view? : walk.view? = some interval.view
  total : interval.total = min list.alternatives.size (2 ^ 64 - 1)
  processed : interval.processed = min list.taken (2 ^ 64 - 1)
  held : walk.current.bind (held? wordReach) = walk.current

theorem WordWalk.Follows.answerAlike {walk : WordWalk} {interval list : Generator}
    (follows : Follows walk interval) (fits : Fits walk.bounds)
    (same : interval.Parallels list) : AnswerAlike walk interval list := by
  constructor
  · exact same.view
  · exact follows.view? fits
  · rw [Generator.total, same.size]
    rfl
  · rw [Generator.processed, same.taken]
    rfl
  · exact follows.current_held fits

/--
Whatever calls are made, a generator over an interval does what the generator over the list
of its terms does, and no number on its way is too large for its word.
-/
theorem interval_walks_its_terms (id : String) (min max delta : Int64)
    (acts : List Generator.Act) :
    Interval.IsProgression min.toInt max.toInt delta.toInt
        (Interval.ofWords min max delta).terms ∧
      AnswerAlike
        (WordWalk.called { id, bounds := .ofWords min max delta } acts)
        (Generator.called { id, alternatives := .interval (.ofWords min max delta) } acts)
        (Generator.called
          { id, alternatives := .ints (Interval.ofWords min max delta).terms } acts) := by
  constructor
  · exact Interval.isProgression_terms _ _ _
  · have fits := WordWalk.fits_ofStep min max delta
    have starts : WordWalk.Follows { id, bounds := .ofWords min max delta }
        { id, alternatives := .interval (.ofWords min max delta) } := ⟨rfl, rfl, rfl, rfl, rfl⟩
    have begins : Generator.Parallels
        { id, alternatives := .interval (.ofWords min max delta) }
        { id, alternatives := .ints (Interval.ofWords min max delta).terms } :=
      ⟨rfl, rfl, rfl, rfl, rfl⟩
    obtain ⟨follows, kept⟩ := starts.acts fits acts
    exact follows.answerAlike (kept ▸ fits) (begins.acts acts)

/-- The widest interval has one term more than can be counted. -/
example : ({ id := "n", bounds := ⟨-9223372036854775808, 9223372036854775807, 1, by decide⟩ } :
    WordWalk).total? = some 18446744073709551615 := by decide

end ChoiceExplorer
