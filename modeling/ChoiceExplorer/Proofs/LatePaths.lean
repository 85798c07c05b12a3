import ChoiceExplorer.Proofs.LateCalls

/-!
# Paths past the depth limit

Past the depth limit a run can only retire the last generator of its full path.
So its first late call that finds alternatives left parts its path from the one
that the run leaves without its late calls.
-/

namespace ChoiceExplorer.Search

namespace Execution

variable {α : Type} {limit count : Nat} {execution : Execution}

/-- A run without a fault has passed all choices up to the limit. -/
structure Placed (limit count : Nat) (execution : Execution) : Prop where
  limited : execution.options.depthLimit = some limit
  within : execution.passed.length + execution.ahead.length ≤ limit
  passed_eq : execution.fault = none → execution.passed.length = min count limit

namespace Placed

theorem tag (placed : execution.Placed limit count) (location : String) :
    (execution.tag location).Placed limit count :=
  ⟨placed.limited, placed.within, placed.passed_eq⟩

theorem choose (placed : execution.Placed limit count) (request : Request) :
    (execution.choose request).2.Placed limit (count + 1) := by
  obtain ⟨limited, within, passed_eq⟩ := placed
  apply choose_cases (motive := fun answer => answer.2.Placed limit (count + 1))
  case faulted =>
      intro fault
      refine ⟨limited, within, fun unfaulted => ?_⟩
      rw [show execution.fault = none from unfaulted] at fault
      cases fault
  case replayed =>
      intro recorded ahead fault reached _
      have passed_eq := passed_eq fault
      rw [reached, List.length_cons] at within
      refine ⟨limited, ?_, fun _ => ?_⟩
      · simp only [List.length_cons]
        omega
      · simp only [List.length_cons]
        omega
  case diverged => exact fun _ _ _ _ _ => ⟨limited, within, nofun⟩
  case empty => exact fun _ _ _ => ⟨limited, within, nofun⟩
  case forced =>
      intro fault _ _ full
      have passed_eq := passed_eq fault
      simp only [Options.isFull, limited, Option.any_some, decide_eq_true_eq] at full
      exact ⟨limited, within, fun _ => by show execution.passed.length = _; omega⟩
  case new =>
      intro fault reached _ room
      have passed_eq := passed_eq fault
      simp only [Options.isFull, limited, Option.any_some, decide_eq_false_iff_not,
        Nat.not_le] at room
      refine ⟨limited, ?_, fun _ => ?_⟩
      · simp only [reached, List.length_cons, List.length_nil]
        omega
      · simp only [List.length_cons]
        omega

theorem draw (placed : execution.Placed limit count) (source : Chance.Draw) :
    (execution.draw source).2.Placed limit (execution.options.countDraw source count) := by
  unfold Options.countDraw
  cases asked : execution.options.request? source with
  | some request =>
      rw [draw_of_request asked]
      exact placed.choose request
  | none =>
      rw [draw_of_none asked]
      exact ⟨placed.limited, placed.within, placed.passed_eq⟩

theorem ignoreRest (placed : execution.Placed limit count) :
    execution.ignoreRest.Placed limit count := by
  unfold Execution.ignoreRest
  match passed : execution.passed with
  | [] => exact placed
  | newest :: older =>
      obtain ⟨limited, within, passed_eq⟩ := placed
      rw [passed] at within passed_eq
      exact ⟨limited, within, passed_eq⟩

/-- Past the limit the path is full, and none of it lies ahead. -/
theorem full (placed : execution.Placed limit count) (late : limit < count)
    (fault : execution.fault = none) :
    execution.ahead = [] ∧ execution.options.isFull execution.passed.length = true := by
  have passed_eq := placed.passed_eq fault
  have within := placed.within
  refine ⟨List.length_eq_zero_iff.mp (by omega), ?_⟩
  simp only [Options.isFull, placed.limited, Option.any_some, decide_eq_true_eq]
  omega

/-- Past the limit a request does not change the path. -/
theorem choose_late (placed : execution.Placed limit count) (late : limit < count)
    (request : Request) :
    (execution.choose request).2.passed = execution.passed ∧
      (execution.choose request).2.ahead = execution.ahead := by
  apply choose_cases (motive := fun answer =>
    answer.2.passed = execution.passed ∧ answer.2.ahead = execution.ahead)
  case faulted => exact fun _ => ⟨rfl, rfl⟩
  case replayed =>
      intro recorded ahead fault reached _
      rw [(placed.full late fault).1] at reached
      cases reached
  case diverged => exact fun _ _ _ _ _ => ⟨rfl, rfl⟩
  case empty => exact fun _ _ _ => ⟨rfl, rfl⟩
  case forced => exact fun _ _ _ _ => ⟨rfl, rfl⟩
  case new =>
      intro fault _ _ room
      rw [(placed.full late fault).2] at room
      cases room

theorem draw_late (placed : execution.Placed limit count) (late : limit < count)
    (source : Chance.Draw) :
    (execution.draw source).2.passed = execution.passed ∧
      (execution.draw source).2.ahead = execution.ahead := by
  cases asked : execution.options.request? source with
  | some request =>
      rw [draw_of_request asked]
      exact placed.choose_late late request
  | none =>
      rw [draw_of_none asked]
      exact ⟨rfl, rfl⟩

theorem of_alike {view : Generator → Generator} {first second : Execution}
    (placed : first.Placed limit count) (alike : Alike view first second) :
    second.Placed limit count := by
  obtain ⟨limited, within, passed_eq⟩ := placed
  have ahead_eq := congrArg List.length alike.ahead_eq
  rw [List.length_map, List.length_map] at ahead_eq
  rw [show first.passed.length = second.passed.length from alike.depth_eq] at within passed_eq
  rw [ahead_eq] at within
  rw [alike.options_eq] at limited
  rw [alike.fault_eq] at passed_eq
  exact ⟨limited, within, passed_eq⟩

end Placed

/-- A late call retires the last generator before the limit, unless it is retired already. -/
theorem ignoreRest_stack_eq_iff (placed : execution.Placed limit count) (late : limit < count)
    (fault : execution.fault = none) :
    execution.ignoreRest.stack = execution.stack ↔
      limit = 0 ∨ ∃ newest, execution.stack.top? = some newest ∧ newest.retired = true := by
  have reached := (placed.full late fault).1
  have passed_eq := placed.passed_eq fault
  have top : execution.stack.top? = execution.passed.head? := by
    simp [stack, ChoiceStack.top?, reached]
  rw [top]
  unfold ignoreRest
  cases passed : execution.passed with
  | nil =>
      rw [passed, List.length_nil] at passed_eq
      exact ⟨fun _ => .inl (by omega), fun _ => rfl⟩
  | cons newest older =>
      rw [passed, List.length_cons] at passed_eq
      have positive : limit ≠ 0 := by omega
      have same : newest.retire = newest ↔ newest.retired = true := by
        refine ⟨fun kept => kept ▸ rfl, fun retired => ?_⟩
        rw [Generator.retire, ← retired]
      simp [stack, reached, passed, positive, same]

theorem le_countDraw (options : Options) (source : Chance.Draw) (count : Nat) :
    count ≤ options.countDraw source count := by
  unfold Options.countDraw
  split
  · exact Nat.le_succ _
  · exact Nat.le_refl _

/-- Past the limit a run without late calls leaves its path as it is. -/
theorem perform_withoutLate_late (run : Run α) (placed : execution.Placed limit count)
    (late : limit < count) :
    (execution.perform (run.withoutLate execution.options count)).2.stack = execution.stack := by
  induction run generalizing execution count with
  | done result => rfl
  | tag location next ih =>
      exact ih (placed.tag location) late
  | ignoreRest next ih =>
      have past : execution.options.isPast count = true := by
        simp [Options.isPast, placed.limited, late]
      rw [Run.withoutLate, if_pos past]
      exact ih placed late
  | depth next ih => exact ih _ placed late
  | choose request next ih =>
      have rest := ih (execution.choose request).1 (placed.choose request)
        (Nat.lt_succ_of_lt late)
      rw [(choose_extends execution request).1] at rest
      refine rest.trans ?_
      obtain ⟨passed_eq, ahead_eq⟩ := placed.choose_late late request
      rw [stack, stack, passed_eq, ahead_eq]
  | draw source next ih =>
      have rest := ih (execution.draw source).1 (placed.draw source)
        (Nat.lt_of_lt_of_le late (le_countDraw _ _ _))
      rw [draw_options] at rest
      refine rest.trans ?_
      obtain ⟨passed_eq, ahead_eq⟩ := placed.draw_late late source
      rw [stack, stack, passed_eq, ahead_eq]

/-- Past the limit a run leaves its path as it is once the newest generator is retired. -/
theorem perform_late (run : Run α) (placed : execution.Placed limit count) (late : limit < count)
    (retired : ∀ newest ∈ execution.passed.head?, newest.retired = true) :
    (execution.perform run).2.stack = execution.stack := by
  induction run generalizing execution count with
  | done result => rfl
  | tag location next ih => exact ih (placed.tag location) late retired
  | ignoreRest next ih =>
      have same : execution.ignoreRest = execution := by
        unfold Execution.ignoreRest
        match passed : execution.passed with
        | [] => rfl
        | newest :: older =>
            rw [passed] at retired
            have kept : newest.retire = newest := by
              rw [Generator.retire, ← retired newest rfl]
            simp only [kept, ← passed]
      rw [perform, same]
      exact ih placed late retired
  | depth next ih => exact ih _ placed late retired
  | choose request next ih =>
      obtain ⟨passed_eq, ahead_eq⟩ := placed.choose_late late request
      refine (ih (execution.choose request).1 (placed.choose request)
        (Nat.lt_succ_of_lt late) (by rw [passed_eq]; exact retired)).trans ?_
      rw [stack, stack, passed_eq, ahead_eq]
  | draw source next ih =>
      obtain ⟨passed_eq, ahead_eq⟩ := placed.draw_late late source
      refine (ih (execution.draw source).1 (placed.draw source)
        (Nat.lt_of_lt_of_le late (le_countDraw _ _ _)) (by rw [passed_eq]; exact retired)).trans ?_
      rw [stack, stack, passed_eq, ahead_eq]

theorem isPast_iff {options : Options} (limited : options.depthLimit = some limit) :
    options.isPast count = true ↔ limit < count := by
  simp [Options.isPast, limited]

/-- The newest generator is retired by a late call that finds alternatives left, and else kept. -/
theorem parts_here {first second : Execution} (run : Run α)
    (alike : Alike Generator.prospect first second) (placed : first.Placed limit count)
    (late : limit < count) (unspent : ¬first.Spent) (fault : first.fault = none) :
    ∃ newest older spared others,
      (first.ignoreRest.perform run).2.stack.newestFirst = newest :: older ∧
      newest.hasMore = false ∧
      (second.perform (run.withoutLate first.options count)).2.stack.newestFirst =
        spared :: others ∧ spared.hasMore = true := by
  have reached := (placed.full late fault).1
  have passed_eq := alike.passed_eq
  simp only [Spent, Classical.not_forall, Bool.not_eq_false] at unspent
  obtain ⟨newest, is_newest, more⟩ := unspent
  obtain ⟨older, passed⟩ := List.head?_eq_some_iff.mp is_newest
  rw [passed] at passed_eq
  match other_passed : second.passed with
  | [] =>
      rw [other_passed] at passed_eq
      cases passed_eq
  | spared :: others =>
      rw [other_passed, List.map_cons, List.map_cons, List.cons.injEq] at passed_eq
      refine ⟨newest.retire, older, spared, others, ?_, rfl, ?_, ?_⟩
      · have retired : first.ignoreRest.passed = newest.retire :: older := by
          simp only [ignoreRest, passed]
        have ahead_eq : first.ignoreRest.ahead = [] := by
          simp only [ignoreRest, passed, reached]
        rw [perform_late run placed.ignoreRest late (by simp [retired, Generator.retire]), stack,
          retired, ahead_eq]
        rfl
      · have none_ahead := alike.ahead_nil reached
        rw [alike.options_eq, perform_withoutLate_late run (placed.of_alike alike) late, stack,
          other_passed, none_ahead]
        rfl
      · rw [← Generator.hasMore_prospect, ← passed_eq.1, Generator.hasMore_prospect]
        exact more

/-- A late call that finds alternatives left parts the paths of a run with and without it. -/
theorem parts_of_not_spent (run : Run α) {first second : Execution}
    (alike : Alike Generator.prospect first second) (placed : first.Placed limit count)
    (unspent : ¬first.AtLateCalls Spent run count)
    (unfaulted : (first.perform run).2.fault = none) :
    ∃ newest older spared others,
      (first.perform run).2.stack.newestFirst = newest :: older ∧ newest.hasMore = false ∧
      (second.perform (run.withoutLate first.options count)).2.stack.newestFirst =
        spared :: others ∧ spared.hasMore = true := by
  induction run generalizing first second count with
  | done result => exact absurd trivial unspent
  | tag location next ih => exact ih (alike.tag location) (placed.tag location) unspent unfaulted
  | ignoreRest next ih =>
      by_cases late : first.options.isPast count = true
      · rw [Run.withoutLate, if_pos late]
        by_cases here : first.Spent
        · have rest := ih (alike.ignoreRest_left here.unseen) placed.ignoreRest
            (fun later => unspent ⟨fun _ => here, later⟩) unfaulted
          rw [ignoreRest_options] at rest
          exact rest
        · have fault : first.fault = none := by
            cases fault : first.fault with
            | none => rfl
            | some reason =>
                rw [perform_fault fault] at unfaulted
                cases unfaulted
          -- The paths part at the first late call that finds something to give up.
          exact parts_here next alike placed ((isPast_iff placed.limited).mp late) here fault
      · rw [Run.withoutLate, if_neg late]
        have rest := ih (alike.ignoreRest tells_prospect) placed.ignoreRest
          (fun later => unspent ⟨fun here => absurd here late, later⟩) unfaulted
        rw [ignoreRest_options] at rest
        exact rest
  | depth next ih =>
      rw [Run.withoutLate]
      simp only [perform, ← alike.depth_eq]
      exact ih first.depth alike placed unspent unfaulted
  | choose request next ih =>
      obtain ⟨answer, alike⟩ := alike.choose tells_prospect request
      have rest := ih (first.choose request).1 alike (placed.choose request) unspent unfaulted
      rw [(choose_extends first request).1] at rest
      rw [Run.withoutLate]
      simp only [perform, ← answer]
      exact rest
  | draw source next ih =>
      obtain ⟨answer, alike⟩ := alike.draw tells_prospect source
      have rest := ih (first.draw source).1 alike (placed.draw source) unspent unfaulted
      rw [draw_options] at rest
      rw [Run.withoutLate]
      simp only [perform, ← answer]
      exact rest

end Execution

end ChoiceExplorer.Search
