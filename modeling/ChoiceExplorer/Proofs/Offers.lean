import ChoiceExplorer.Proofs.Calls

/-!
# What alternatives offer

The values that the alternatives of a choice point give to a program, said without
their positions: either truth value, a listed value, or a whole number between the
bounds of an interval.  All of them are of the sort that belongs to the kind.
-/

namespace ChoiceExplorer

/-- Whether generators of a kind give values of this sort.  The general kinds have no generators. -/
def Kind.Yields : Kind → Value → Prop
  | .boolean, .bool _ => True
  | .intInterval, .int _ => True
  | .intSet, .int _ => True
  | .longList, .long _ => True
  | .doubleList, .double _ => True
  | .floatList, .float _ => True
  | .threadSet, .thread _ => True
  | _, _ => False

theorem Kind.yields_thread_iff {kind : Kind} {thread : Thread} :
    kind.Yields (.thread thread) ↔ kind = .threadSet := by
  cases kind <;> simp [Kind.Yields]

/-- A term lies between the bounds if the way to it is not longer than the interval. -/
theorem Interval.within_iff (interval : Interval) (position : Nat) :
    (interval.min ≤ interval.term position ∧ interval.term position ≤ interval.max) ↔
      ¬interval.max < interval.min ∧
        position * interval.step.natAbs ≤ (interval.max - interval.min).toNat := by
  have walked : (position * interval.step).natAbs = position * interval.step.natAbs := by
    rw [Int.natAbs_mul, Int.natAbs_natCast]
  unfold term start
  split
  · rename_i rising
    have ahead : 0 ≤ position * interval.step :=
      Int.mul_nonneg (Int.natCast_nonneg position) (Int.le_of_lt rising)
    omega
  · rename_i falling
    have behind : position * interval.step ≤ 0 :=
      Int.mul_nonpos_of_nonneg_of_nonpos (Int.natCast_nonneg position) (Int.not_lt.mp falling)
    omega

/-- The terms between the bounds are those before the size. -/
theorem Interval.lt_size_iff (interval : Interval) (position : Nat) :
    position < interval.size ↔
      interval.min ≤ interval.term position ∧ interval.term position ≤ interval.max := by
  rw [within_iff, size]
  split
  · rename_i empty
    constructor
    · intro lt
      exact absurd lt (Nat.not_lt_zero _)
    · rintro ⟨ordered, -⟩
      exact absurd empty ordered
  · rename_i ordered
    rw [Nat.lt_succ_iff, Nat.le_div_iff_mul_le (Int.natAbs_pos.mpr interval.step_ne_zero)]
    exact (and_iff_right ordered).symm

/-- Every term of an interval lies between its bounds. -/
theorem Interval.within_of_lt {interval : Interval} {position : Nat}
    (lt : position < interval.size) :
    interval.min ≤ interval.term position ∧ interval.term position ≤ interval.max :=
  (interval.lt_size_iff position).mp lt

namespace Alternatives

/-- A value is among those that alternatives give to a program. -/
def Offers : Alternatives → Value → Prop
  | booleans, .bool _ => True
  | ints values, .int number => number ∈ values
  | interval bounds, .int number => bounds.min ≤ number ∧ number ≤ bounds.max
  | longs values, .long number => number ∈ values
  | doubles values, .double number => number ∈ values
  | floats values, .float number => number ∈ values
  | threads listed, .thread thread => thread ∈ listed
  | _, _ => False

theorem Offers.yields {alternatives : Alternatives} {value : Value}
    (offered : alternatives.Offers value) : alternatives.kind.Yields value := by
  unfold Offers at offered
  split at offered <;> trivial

theorem offers_of_get? {alternatives : Alternatives} {position : Nat} {value : Value}
    (found : alternatives.get? position = some value) : alternatives.Offers value := by
  cases alternatives with
  | booleans =>
      obtain ⟨truth, -, rfl⟩ := Option.map_eq_some_iff.mp found
      trivial
  | interval bounds =>
      rw [get?] at found
      split at found
      · rename_i lt
        cases found
        exact Interval.within_of_lt lt
      · cases found
  | ints values =>
      obtain ⟨number, listed, rfl⟩ := Option.map_eq_some_iff.mp found
      exact List.mem_of_getElem? listed
  | longs values =>
      obtain ⟨number, listed, rfl⟩ := Option.map_eq_some_iff.mp found
      exact List.mem_of_getElem? listed
  | doubles values =>
      obtain ⟨number, listed, rfl⟩ := Option.map_eq_some_iff.mp found
      exact List.mem_of_getElem? listed
  | floats values =>
      obtain ⟨number, listed, rfl⟩ := Option.map_eq_some_iff.mp found
      exact List.mem_of_getElem? listed
  | threads listed =>
      obtain ⟨thread, member, rfl⟩ := Option.map_eq_some_iff.mp found
      exact List.mem_of_getElem? member

theorem offers_of_mem {alternatives : Alternatives} {value : Value}
    (member : value ∈ alternatives.toList) : alternatives.Offers value := by
  obtain ⟨position, found⟩ := List.getElem?_of_mem member
  rw [getElem?_toList] at found
  exact offers_of_get? found

end Alternatives

namespace Request

/-- The value of a choice point at one of its positions. -/
theorem value_offered {request : Request} {position : Nat}
    (lt : position < request.alternatives.size) :
    request.alternatives.Offers (request.value position) := by
  have isSome : (request.alternatives.get? position).isSome = true := by
    rw [Alternatives.get?_isSome]
    exact decide_eq_true lt
  obtain ⟨value, found⟩ := Option.isSome_iff_exists.mp isSome
  rw [Request.value, found]
  exact Alternatives.offers_of_get? found

/-- A whole number between two bounds is offered exactly if it lies between them. -/
theorem int_offers_iff (min max : Int) (value : Value) :
    (int min max).alternatives.Offers value ↔
      ∃ number, value = .int number ∧ min ≤ number ∧ number ≤ max := by
  constructor
  · intro offered
    cases value with
    | int number => exact ⟨number, rfl, offered⟩
    | _ => exact offered.elim
  · rintro ⟨number, rfl, within⟩
    exact within

end Request

namespace Generator

/-- A generator that has been started has a current alternative. -/
theorem exists_value {generator : Generator} (started : 0 < generator.taken) :
    ∃ value, generator.value? = some value ∧ generator.alternatives.Offers value := by
  obtain ⟨before, count⟩ : ∃ before, generator.taken = before + 1 :=
    ⟨generator.taken - 1, by omega⟩
  have isSome : (generator.alternatives.get? before).isSome = true := by
    rw [Alternatives.get?_isSome]
    exact decide_eq_true (Nat.lt_of_lt_of_le (by omega) generator.taken_le)
  obtain ⟨value, found⟩ := Option.isSome_iff_exists.mp isSome
  refine ⟨value, ?_, Alternatives.offers_of_get? found⟩
  simp only [value?, count, found]

end Generator

end ChoiceExplorer
