import ChoiceExplorer.Proofs.Path

/-!
# What a run keeps

A run of any program keeps the options of its search and the generators that it
finds on the path, up to their retirement.  Its path never gets longer than a
depth limit allows, nor than its choice calls can make it.
-/

namespace ChoiceExplorer.Search.Execution

variable {α : Type}

theorem toList_stack (execution : Execution) :
    execution.stack.toList = execution.passed.reverse ++ execution.ahead := by
  simp [stack, ChoiceStack.toList]

theorem depth_stack (execution : Execution) :
    execution.stack.depth = execution.passed.length + execution.ahead.length := by
  rw [← ChoiceStack.length_toList, toList_stack, List.length_append, List.length_reverse]

/-- A request adds the generator of a new choice point to the path, if anything. -/
theorem choose_stack (execution : Execution) (request : Request) :
    (execution.choose request).2.stack = execution.stack ∨
      execution.fault = none ∧ execution.ahead = [] ∧ request.alternatives.size ≠ 0 ∧
        execution.isFull = false ∧
        (execution.choose request).2.stack =
          execution.stack.push (execution.generator request) := by
  apply choose_cases (motive := fun answer => answer.2.stack = execution.stack ∨
    execution.fault = none ∧ execution.ahead = [] ∧ request.alternatives.size ≠ 0 ∧
      execution.isFull = false ∧
      answer.2.stack = execution.stack.push (execution.generator request))
  case faulted => exact fun _ => .inl rfl
  case replayed =>
      intro recorded ahead _ reached _
      refine .inl ?_
      simp only [stack, reached, List.reverse_cons, List.append_assoc, List.singleton_append]
  case diverged => exact fun _ _ _ _ _ => .inl rfl
  case empty => exact fun _ _ _ => .inl rfl
  case forced => exact fun _ _ _ _ => .inl rfl
  case new =>
      intro fault reached offers room
      refine .inr ⟨fault, reached, offers, room, ?_⟩
      rw [stack, stack, reached]
      rfl

theorem choose_extends (execution : Execution) (request : Request) :
    (execution.choose request).2.options = execution.options ∧
      Extends execution.stack.toList (execution.choose request).2.stack.toList := by
  apply choose_cases (motive := fun answer =>
    answer.2.options = execution.options ∧
      Extends execution.stack.toList answer.2.stack.toList)
  case faulted => exact fun _ => ⟨rfl, .refl _⟩
  case replayed =>
      intro recorded ahead _ reached _
      refine ⟨rfl, ?_⟩
      simp only [toList_stack, reached, List.reverse_cons, List.append_assoc,
        List.cons_append, List.nil_append]
      exact .refl _
  case diverged => exact fun _ _ _ _ _ => ⟨rfl, .refl _⟩
  case empty => exact fun _ _ _ => ⟨rfl, .refl _⟩
  case forced => exact fun _ _ _ _ => ⟨rfl, .refl _⟩
  case new =>
      intro _ reached _ _
      refine ⟨rfl, ?_⟩
      simp only [toList_stack, reached, List.reverse_cons, List.append_nil]
      exact .add _ _

theorem ignoreRest_extends (execution : Execution) :
    Extends execution.stack.toList execution.ignoreRest.stack.toList := by
  unfold ignoreRest
  split
  · exact .refl _
  · rename_i newest older passed
    simp only [toList_stack, passed, List.reverse_cons, List.append_assoc]
    exact .append_left _ (.keep (.inr rfl) (.refl _))

theorem perform_extends (execution : Execution) (run : Run α) :
    (execution.perform run).2.options = execution.options ∧
      Extends execution.stack.toList (execution.perform run).2.stack.toList := by
  apply perform_keeps (motive := fun reached =>
    reached.options = execution.options ∧
      Extends execution.stack.toList reached.stack.toList)
  case tagged => exact fun _ _ kept => kept
  case retired =>
      intro reached kept
      refine ⟨?_, kept.2.trans (ignoreRest_extends reached)⟩
      rw [← kept.1, ignoreRest]
      split <;> rfl
  case chosen =>
      intro reached request kept
      obtain ⟨options_eq, further⟩ := choose_extends reached request
      exact ⟨options_eq.trans kept.1, kept.2.trans further⟩
  case drawn => exact fun _ _ kept => kept
  case holds => exact ⟨rfl, .refl _⟩

theorem ignoreRest_depth (execution : Execution) :
    execution.ignoreRest.depth = execution.depth ∧
      execution.ignoreRest.stack.depth = execution.stack.depth := by
  unfold ignoreRest
  split
  · exact ⟨rfl, rfl⟩
  · rename_i newest older passed
    simp [depth, depth_stack, passed]

theorem ignoreRest_options (execution : Execution) :
    execution.ignoreRest.options = execution.options := by
  unfold ignoreRest
  split <;> rfl

theorem ahead_ignoreRest (execution : Execution) :
    execution.ignoreRest.ahead = execution.ahead := by
  unfold ignoreRest
  split <;> rfl

theorem fault_ignoreRest (execution : Execution) :
    execution.ignoreRest.fault = execution.fault := by
  unfold ignoreRest
  split <;> rfl

theorem truncated_ignoreRest (execution : Execution) :
    execution.ignoreRest.truncated = execution.truncated := by
  unfold ignoreRest
  split <;> rfl

/-- The first fault of a run stays. -/
theorem perform_fault {execution : Execution} {fault : Fault}
    (faulted : execution.fault = some fault) (run : Run α) :
    (execution.perform run).2.fault = some fault := by
  apply perform_keeps (motive := fun reached => reached.fault = some fault)
  case tagged => exact fun _ _ kept => kept
  case retired =>
      intro reached kept
      rw [ignoreRest]
      split <;> exact kept
  case chosen =>
      intro reached request kept
      rw [choose_of_fault (by rw [kept]; rfl)]
      exact kept
  case drawn => exact fun _ _ kept => kept
  case holds => exact faulted

/-- A path that respects the depth limit goes on doing so. -/
theorem perform_depth_le_limit {limit : Nat} {execution : Execution}
    (limited : execution.options.depthLimit = some limit)
    (within : execution.stack.depth ≤ limit) (run : Run α) :
    (execution.perform run).2.stack.depth ≤ limit := by
  have kept := perform_keeps (motive := fun reached =>
    reached.options.depthLimit = some limit ∧ reached.stack.depth ≤ limit)
    ?tagged ?retired ?chosen ?drawn run execution ⟨limited, within⟩
  case tagged => exact fun _ _ kept => kept
  case retired =>
      intro reached kept
      rw [ignoreRest_options, (ignoreRest_depth reached).2]
      exact kept
  case chosen =>
      intro reached request kept
      obtain ⟨limited, within⟩ := kept
      apply choose_cases (motive := fun answer =>
        answer.2.options.depthLimit = some limit ∧ answer.2.stack.depth ≤ limit)
      case faulted => exact fun _ => ⟨limited, within⟩
      case replayed =>
          intro recorded ahead _ ahead_eq _
          refine ⟨limited, ?_⟩
          rw [depth_stack, ahead_eq] at within
          rw [depth_stack]
          simp only [List.length_cons] at within ⊢
          omega
      case diverged => exact fun _ _ _ _ _ => ⟨limited, within⟩
      case empty => exact fun _ _ _ => ⟨limited, within⟩
      case forced => exact fun _ _ _ _ => ⟨limited, within⟩
      case new =>
          intro _ ahead_eq _ room
          refine ⟨limited, ?_⟩
          simp only [Options.isFull, limited, Option.any_some, decide_eq_false_iff_not,
            Nat.not_le] at room
          simp only [depth_stack, ahead_eq, List.length_cons, List.length_nil]
          omega
  case drawn => exact fun _ _ kept => kept
  exact kept.2

def choices : Execution → Run α → Nat
  | _, .done _ => 0
  | execution, .tag location next => choices (execution.tag location) next
  | execution, .ignoreRest next => choices execution.ignoreRest next
  | execution, .depth next => choices execution (next execution.depth)
  | execution, .choose request next =>
      let (value, execution) := execution.choose request
      choices execution (next value) + 1
  | execution, .draw source next =>
      let asked := if (execution.options.request? source).isSome then 1 else 0
      let (value, execution) := execution.draw source
      choices execution (next value) + asked

theorem choose_depth_le (execution : Execution) (request : Request) :
    (execution.choose request).2.depth ≤ execution.depth + 1 ∧
      (execution.choose request).2.stack.depth ≤
        max execution.stack.depth (execution.depth + 1) := by
  apply choose_cases (motive := fun answer =>
    answer.2.depth ≤ execution.depth + 1 ∧
      answer.2.stack.depth ≤ max execution.stack.depth (execution.depth + 1))
  case faulted => exact fun _ => ⟨Nat.le_succ _, Nat.le_max_left _ _⟩
  case replayed =>
      intro recorded ahead _ ahead_eq _
      simp only [depth, depth_stack, ahead_eq, List.length_cons]
      omega
  case diverged => exact fun _ _ _ _ _ => ⟨Nat.le_succ _, Nat.le_max_left _ _⟩
  case empty => exact fun _ _ _ => ⟨Nat.le_succ _, Nat.le_max_left _ _⟩
  case forced => exact fun _ _ _ _ => ⟨Nat.le_succ _, Nat.le_max_left _ _⟩
  case new =>
      intro _ ahead_eq _ _
      simp only [depth, depth_stack, ahead_eq, List.length_cons, List.length_nil]
      omega

/-- A path gets no longer than the choices of the run can make it. -/
theorem perform_depth_le_choices (execution : Execution) (run : Run α) :
    (execution.perform run).2.stack.depth ≤
      max execution.stack.depth (execution.depth + execution.choices run) := by
  induction run generalizing execution with
  | done result => exact Nat.le_max_left _ _
  | tag location next ih => exact ih (execution.tag location)
  | ignoreRest next ih =>
      have further := ih execution.ignoreRest
      rw [(ignoreRest_depth execution).1, (ignoreRest_depth execution).2] at further
      exact further
  | depth next ih => exact ih execution.depth execution
  | choose request next ih =>
      have further := ih (execution.choose request).1 (execution.choose request).2
      have bounds := choose_depth_le execution request
      simp only [perform, choices]
      omega
  | draw source next ih =>
      have further := ih (execution.draw source).1 (execution.draw source).2
      simp only [perform, choices]
      cases asked : execution.options.request? source with
      | some request =>
          have bounds := choose_depth_le execution request
          rw [draw_of_request asked] at further ⊢
          simp only [Option.isSome_some, if_true]
          omega
      | none =>
          rw [draw_of_none asked] at further ⊢
          exact further

end ChoiceExplorer.Search.Execution
