import ChoiceExplorer.Proofs.ChoiceTree

/-!
# The leaves of a choice tree

What every answer keeps of the course of a run holds at all leaves of its tree.
A leaf has a fault only by asking for an empty choice, and it is truncated only
under a depth limit.
-/

namespace ChoiceExplorer

namespace Request

/-- The positions of a choice point run through its alternatives in their order. -/
theorem values_eq (request : Request) :
    (List.range request.alternatives.size).map request.value = request.alternatives.toList := by
  refine List.ext_getElem? fun position => ?_
  rw [Alternatives.getElem?_toList, List.getElem?_map]
  by_cases lt : position < request.alternatives.size
  · have found : (request.alternatives.get? position).isSome = true := by
      rw [Alternatives.get?_isSome]
      exact decide_eq_true lt
    obtain ⟨value, found⟩ := Option.isSome_iff_exists.mp found
    simp [lt, Request.value, found]
  · have missing : request.alternatives.get? position = none := by
      rw [← Option.not_isSome_iff_eq_none, Alternatives.get?_isSome]
      simp [lt]
    simp [lt, missing]

theorem value_size (request : Request) :
    request.value request.alternatives.size = request.alternatives.fallback := by
  have missing : request.alternatives.get? request.alternatives.size = none := by
    rw [← Option.not_isSome_iff_eq_none, Alternatives.get?_isSome]
    simp
  rw [value, missing]
  rfl

theorem pick_taken {request : Request} {position : Nat}
    (lt : position < request.alternatives.size) : (request.pick position).taken = position + 1 := by
  simp only [pick, Generator.unstarted, Generator.advanceBy]
  show min (0 + (position + 1)) request.alternatives.size = position + 1
  omega

/-- A whole number between two bounds runs upwards through all of them. -/
theorem int_values (min max : Int) :
    (Request.int min max).alternatives.toList =
      (List.range (max + 1 - min).toNat).map fun (offset : Nat) => Value.int (min + offset) := by
  have size : (Interval.ofStep min max 1).size = (max + 1 - min).toNat := by
    show (if max < min then 0 else (max - min).toNat / 1 + 1) = _
    split <;> omega
  simp only [Request.int, Alternatives.toList, Interval.terms, size, List.map_map]
  refine List.map_congr_left fun offset _ => ?_
  simp [Interval.term, Interval.start, Interval.ofStep]

end Request

namespace Search

section

variable {α : Type} {final : α → Bool}

theorem mem_of_mem_upTo {list : List α} {element : α} (member : element ∈ upTo final list) :
    element ∈ list := by
  induction list with
  | nil => exact member
  | cons first rest ih =>
      rw [upTo] at member
      rcases List.mem_cons.mp member with rfl | later
      · exact List.mem_cons_self
      · split at later
        · cases later
        · exact List.mem_cons_of_mem _ (ih later)

theorem upTo_eq_self {list : List α}
    (none_final : ∀ element ∈ upTo final list, final element = false) :
    upTo final list = list := by
  induction list with
  | nil => rfl
  | cons first rest ih =>
      rw [upTo, List.forall_mem_cons] at none_final
      obtain ⟨goes_on, none_final⟩ := none_final
      rw [goes_on] at none_final
      rw [upTo, goes_on]
      exact congrArg (first :: ·) (ih none_final)

theorem upTo_of_forall {list : List α} (none_final : ∀ element ∈ list, final element = false) :
    upTo final list = list :=
  upTo_eq_self fun element member => none_final element (mem_of_mem_upTo member)

theorem upTo_append_cons {before after : List α} {last : α}
    (none_final : ∀ element ∈ before, final element = false) (is_final : final last = true) :
    upTo final (before ++ last :: after) = before ++ [last] := by
  induction before with
  | nil => simp [upTo, is_final]
  | cons first rest ih =>
      rw [List.forall_mem_cons] at none_final
      rw [List.cons_append, upTo, none_final.1, ih none_final.2]
      rfl

end

namespace ChoiceTree

variable {α : Type}

theorem mem_leaves_node {request : Request} {below : Nat → ChoiceTree α} {leaf : Visit α}
    (member : leaf ∈ (node request below).leaves) :
    ∃ position, position < request.alternatives.size ∧ leaf ∈ (below position).leaves := by
  rw [leaves] at member
  obtain ⟨position, taken, member⟩ := List.mem_flatMap.mp member
  exact ⟨position, List.mem_range.mp (mem_of_mem_upTo taken), member⟩

end ChoiceTree

namespace Course

variable {α : Type}

/-- A request leads on with one of its values, or to a choice point. -/
theorem ask_cases {motive : ChoiceTree α → Prop} {options : Options} {course : Course}
    {request : Request} {next : Value → Course → ChoiceTree α}
    (answered : ∀ position reached, motive (next (request.value position) reached))
    (branched : ∀ below, motive (.node request below)) :
    motive (course.ask options request next) := by
  unfold ask
  split
  · rw [← request.value_size]
    exact answered _ _
  · split
    · rw [← request.value_size]
      exact answered _ _
    · split
      · exact answered _ _
      · exact branched _

variable {motive : Course → Prop}

/-- What every answer keeps of the course of a run holds at all leaves of its tree. -/
theorem leaves_keep (options : Options)
    (noted : ∀ course answer, motive course → motive (course.note answer))
    (drawn : ∀ course random, motive course → motive { course with random })
    (stuck : ∀ course id, motive course →
      motive { course with fault := some (.emptyChoice id) })
    (forced : ∀ course, options.isFull course.path.length = true → motive course →
      motive { course with truncated := true })
    (passed : ∀ course request position, options.isFull course.path.length = false →
      motive course → motive (course.pass request position))
    (run : Run α) {course : Course} (holds : motive course) :
    ∀ leaf ∈ (run.tree options course).leaves,
      ∃ reached result, motive reached ∧ leaf = reached.visit result := by
  -- A random value that is enumerated is asked for like a choice, so both go on by this.
  have asked (request : Request) (course : Course) (holds : motive course) (next : Value → Run α)
      (leaf : Visit α)
      (member : leaf ∈ (course.ask options request fun value course =>
        (next value).tree options course).leaves) :
      ∃ value reached, motive reached ∧ leaf ∈ ((next value).tree options reached).leaves := by
    cases fault : course.fault with
    | some reason =>
        rw [ask_of_fault (by rw [fault]; rfl)] at member
        exact ⟨_, _, noted _ _ holds, member⟩
    | none =>
        by_cases offers : request.alternatives.size = 0
        · rw [ask_of_empty fault offers] at member
          exact ⟨_, _, stuck _ _ (noted _ _ holds), member⟩
        · cases full : options.isFull course.path.length with
          | true =>
              rw [ask_of_full fault offers full] at member
              exact ⟨_, _, forced (course.note _) full (noted _ _ holds), member⟩
          | false =>
              rw [ask_of_room fault offers full] at member
              obtain ⟨position, -, member⟩ := ChoiceTree.mem_leaves_node member
              exact ⟨_, _, passed _ _ _ full holds, member⟩
  induction run generalizing course with
  | done result =>
      intro leaf member
      exact ⟨course, result, holds, List.mem_singleton.mp member⟩
  | tag location next ih => exact ih holds
  | ignoreRest next ih =>
      rw [Run.tree]
      split
      · exact ih holds
      · exact ih holds
  | depth next ih => exact ih _ (noted _ _ holds)
  | choose request next ih =>
      intro leaf member
      obtain ⟨value, reached, holds, member⟩ := asked request course holds next leaf member
      exact ih value holds leaf member
  | draw source next ih =>
      intro leaf member
      rw [Run.tree] at member
      split at member
      · rename_i request _
        obtain ⟨value, reached, holds, member⟩ := asked request course holds next leaf member
        exact ih value holds leaf member
      · exact ih _ (drawn _ _ (noted _ _ holds)) leaf member

end Course

namespace Options

variable {α : Type}

/-- A leaf has a fault only by asking for an empty choice. -/
theorem fault_of_mem_leaves (options : Options) (run : Run α) {leaf : Visit α}
    (member : leaf ∈ (run.wholeTree options).leaves) :
    leaf.fault = none ∨ ∃ id, leaf.fault = some (.emptyChoice id) := by
  have kept := Course.leaves_keep (motive := fun course =>
    course.fault = none ∨ ∃ id, course.fault = some (.emptyChoice id)) options
    ?noted ?drawn ?stuck ?forced ?passed run (.inl rfl) leaf member
  case noted => exact fun _ _ kept => kept
  case drawn => exact fun _ _ kept => kept
  case stuck => exact fun _ id _ => .inr ⟨id, rfl⟩
  case forced => exact fun _ _ kept => kept
  case passed => exact fun _ _ _ _ kept => kept
  obtain ⟨reached, result, kept, rfl⟩ := kept
  exact kept

/-- Without a depth limit no leaf is truncated. -/
theorem untruncated_of_mem_leaves {options : Options} (unlimited : options.depthLimit = none)
    (run : Run α) {leaf : Visit α} (member : leaf ∈ (run.wholeTree options).leaves) :
    leaf.truncated = false := by
  have kept := Course.leaves_keep (motive := fun course => course.truncated = false)
    options ?noted ?drawn ?stuck ?forced ?passed run rfl leaf member
  case noted => exact fun _ _ kept => kept
  case drawn => exact fun _ _ kept => kept
  case stuck => exact fun _ _ kept => kept
  case forced =>
      intro course full
      simp [isFull, unlimited] at full
  case passed => exact fun _ _ _ _ kept => kept
  obtain ⟨reached, result, kept, rfl⟩ := kept
  exact kept

end Options

end Search

end ChoiceExplorer
