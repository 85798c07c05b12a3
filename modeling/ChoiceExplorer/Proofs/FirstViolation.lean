import ChoiceExplorer.Proofs.Endings
import ChoiceExplorer.Proofs.Moments

/-!
# Stopping at the first violation

Whether a search goes on after violations matters to no call of a run.  So a search
that stops at the first violation and one that goes on are in step up to the first
run that fails, and the one that stops then finishes.
-/

namespace ChoiceExplorer.Search

def Options.withMultiple (options : Options) (multiple : Bool) : Options :=
  { options with multipleErrors := multiple }

def withMultiple (search : Search) (multiple : Bool) : Search :=
  { search with options := search.options.withMultiple multiple }

def Visit.fails (visit : Visit (Option Violation)) : Bool :=
  visit.fault.isNone && visit.result.isSome

theorem Visit.fails_iff {visit : Visit (Option Violation)} :
    visit.fails = true ↔ visit.fault = none ∧ ∃ violation, visit.result = some violation := by
  rw [fails, Bool.and_eq_true, Option.isNone_iff_eq_none, Option.isSome_iff_exists]

/-- A run that counts and does not fail ends without a violation. -/
theorem Visit.result_of_passes {visit : Visit (Option Violation)} (passes : visit.fails = false)
    (unfaulted : visit.fault = none) : visit.result = none := by
  simpa [fails, unfaulted] using passes

/-- Of the runs that end with a violation the first one comes first. -/
theorem failures_of_first {before after : List (Visit (Option Violation))}
    {visit : Visit (Option Violation)} {violation : Violation}
    (silent : ∀ earlier ∈ before, earlier.result = none)
    (violated : visit.result = some violation) :
    (before ++ visit :: after).filterMap Visit.failure? =
      (violation, visit.path) :: after.filterMap Visit.failure? := by
  have skipped : before.filterMap Visit.failure? = [] := by
    rw [List.filterMap_eq_nil_iff]
    intro earlier member
    rw [Visit.failure?, silent earlier member]
    rfl
  have first : visit.failure? = some (violation, visit.path) := by
    rw [Visit.failure?, violated]
    rfl
  rw [List.filterMap_append, skipped, List.nil_append, List.filterMap_cons, first]

/-- What is recorded of a run that is the first to fail. -/
def Visit.firstRecord (visit : Visit (Option Violation)) (violation : Violation) : Record :=
  ⟨errorId 1, violation, visit.path.length, visit.path.map Generator.text⟩

section

variable {before : List (Visit (Option Violation))} {visit : Visit (Option Violation)}
  {violation : Violation} (silent : ∀ earlier ∈ before, earlier.result = none)
  (violated : visit.result = some violation)

include silent violated

theorem head?_records_of_first (after : List (Visit (Option Violation))) :
    (records (before ++ visit :: after)).head? = some (visit.firstRecord violation) := by
  rw [records, failures_of_first silent violated, List.mapIdx_cons]
  rfl

theorem closed_of_first :
    Summary.closed (before ++ [visit]) =
      { violations := [visit.firstRecord violation]
        pathsExplored := before.length + 1
        truncatedPaths := (before ++ [visit]).countP Visit.truncated
        maxDepth := longest (before ++ [visit]) } := by
  rw [Summary.closed, records, failures_of_first silent violated, List.length_append]
  rfl

end

namespace Execution

variable {α : Type}

def withMultiple (execution : Execution) (multiple : Bool) : Execution :=
  { execution with options := execution.options.withMultiple multiple }

theorem choose_withMultiple (execution : Execution) (multiple : Bool) (request : Request) :
    (execution.withMultiple multiple).choose request =
      ((execution.choose request).1, (execution.choose request).2.withMultiple multiple) := by
  apply choose_cases (motive := fun answer =>
    (execution.withMultiple multiple).choose request = (answer.1, answer.2.withMultiple multiple))
  case faulted => exact fun fault => choose_of_fault fault
  case replayed =>
    exact fun recorded ahead fault reached kind => choose_of_recorded fault reached kind
  case diverged => exact fun recorded ahead fault reached kind => choose_of_other fault reached kind
  case empty => exact fun fault reached offers => choose_of_empty fault reached offers
  case forced => exact fun fault reached offers full => choose_of_full fault reached offers full
  case new => exact fun fault reached offers room => choose_of_new fault reached offers room

theorem draw_withMultiple (execution : Execution) (multiple : Bool) (source : Chance.Draw) :
    (execution.withMultiple multiple).draw source =
      ((execution.draw source).1, (execution.draw source).2.withMultiple multiple) := by
  cases asked : execution.options.request? source with
  | some request =>
      have same : (execution.withMultiple multiple).options.request? source = some request := asked
      rw [draw_of_request asked, draw_of_request same, choose_withMultiple]
  | none =>
      have same : (execution.withMultiple multiple).options.request? source = none := asked
      rw [draw_of_none asked, draw_of_none same]
      rfl

theorem ignoreRest_withMultiple (execution : Execution) (multiple : Bool) :
    (execution.withMultiple multiple).ignoreRest = execution.ignoreRest.withMultiple multiple := by
  obtain ⟨options, passed, ahead, random, location, truncated, fault⟩ := execution
  cases passed <;> rfl

/-- A run goes the same way whether or not the search goes on after violations. -/
theorem perform_withMultiple (execution : Execution) (multiple : Bool) (run : Run α) :
    (execution.withMultiple multiple).perform run =
        ((execution.perform run).1, (execution.perform run).2.withMultiple multiple) ∧
      (execution.withMultiple multiple).answers run = execution.answers run := by
  induction run generalizing execution with
  | done result => exact ⟨rfl, rfl⟩
  | tag location next ih => exact ih (execution.tag location)
  | ignoreRest next ih =>
      rw [perform, answers, ignoreRest_withMultiple]
      exact ih execution.ignoreRest
  | depth next ih =>
      obtain ⟨performed, answered⟩ := ih execution.depth execution
      exact ⟨performed, congrArg (Answer.passed execution.depth :: ·) answered⟩
  | choose request next ih =>
      obtain ⟨performed, answered⟩ := ih (execution.choose request).1 (execution.choose request).2
      simp only [perform, answers, choose_withMultiple, answered]
      exact ⟨performed, trivial⟩
  | draw source next ih =>
      obtain ⟨performed, answered⟩ := ih (execution.draw source).1 (execution.draw source).2
      simp only [perform, answers, draw_withMultiple, answered]
      exact ⟨performed, trivial⟩

end Execution

namespace Progress

variable {σ : Type} {program : Program σ} {progress : Progress σ}

def withMultiple (progress : Progress σ) (multiple : Bool) : Progress σ :=
  { progress with search := progress.search.withMultiple multiple }

theorem attempt_withMultiple (program : Program σ) (progress : Progress σ) (multiple : Bool) :
    (progress.withMultiple multiple).attempt program =
      ((progress.attempt program).1, (progress.attempt program).2.withMultiple multiple) :=
  (Execution.perform_withMultiple progress.opening multiple (program progress.state)).1

theorem left_withMultiple (program : Program σ) (progress : Progress σ) (multiple : Bool) :
    (progress.withMultiple multiple).left program = progress.left program := by
  rw [left, attempt_withMultiple]
  rfl

theorem visit_withMultiple (program : Program σ) (progress : Progress σ) (multiple : Bool) :
    (progress.withMultiple multiple).visit program = progress.visit program := by
  obtain ⟨performed, answered⟩ :=
    Execution.perform_withMultiple progress.opening multiple (program progress.state)
  have same : (progress.opening.withMultiple multiple).visit (program progress.state) =
      progress.opening.visit (program progress.state) := by
    rw [Execution.visit, Execution.visit, performed, answered]
    rfl
  exact congrArg (Visit.map Prod.fst) same

theorem counted_withMultiple (program : Program σ) (progress : Progress σ) (multiple : Bool) :
    (progress.withMultiple multiple).counted program =
      (progress.counted program).withMultiple multiple := by
  unfold counted
  rw [left_withMultiple, attempt_withMultiple]
  cases (progress.attempt program).1.1 <;> rfl

theorem turn_withMultiple (progress : Progress σ) (multiple : Bool) :
    (progress.withMultiple multiple).turn =
      (progress.turn.1, progress.turn.2.withMultiple multiple) := by
  have same : (progress.withMultiple multiple).search.stack.next? = progress.search.stack.next? :=
    rfl
  unfold turn
  rw [same]
  cases progress.search.stack.next? with
  | none => rfl
  | some stack => rfl

/-- A run that does not fail leaves two such searches in step. -/
theorem step_withMultiple (passes : (progress.visit program).fails = false) (multiple : Bool) :
    (progress.withMultiple multiple).step program =
      ((progress.step program).1, (progress.step program).2.withMultiple multiple) := by
  cases fault : (progress.attempt program).2.fault with
  | some reason =>
      have faulted : ((progress.withMultiple multiple).attempt program).2.fault = some reason := by
        rw [attempt_withMultiple]
        exact fault
      rw [step_of_fault fault, step_of_fault faulted]
      simp only [stopped, left_withMultiple, attempt_withMultiple]
      rfl
  | none =>
      have unfaulted : ((progress.withMultiple multiple).attempt program).2.fault = none := by
        rw [attempt_withMultiple]
        exact fault
      have found : (progress.attempt program).1.1 = none := by
        simpa [Visit.fails, fault] using passes
      rw [step_of_no_fault fault, step_of_no_fault unfaulted, counted_withMultiple,
        attempt_withMultiple]
      simp only [found]
      exact turn_withMultiple
        { progress with
          search := progress.counted program, state := (progress.attempt program).1.2 } multiple

/-- A search that stops at violations finishes with the first run that fails. -/
theorem step_of_fails (fails : (progress.visit program).fails = true)
    (stops : progress.search.options.multipleErrors = false) :
    ∃ last, progress.step program =
      (some (.finished (progress.search.summary.add (progress.visit program))), last) := by
  obtain ⟨unfaulted, violated⟩ := (Bool.and_eq_true _ _).mp fails
  rcases step_cases program progress with
      ⟨fault, last, faulted, -⟩ | ⟨last, -, -, stepped⟩ | ⟨next, follows⟩
  · rw [faulted] at unfaulted
    cases unfaulted
  · exact ⟨last, stepped⟩
  · have goes_on := follows.goes_on
    rw [Visit.halts, violated, stops] at goes_on
    simp at goes_on

/-- As long as no run fails two such searches make the same runs and end alike. -/
theorem explore_withMultiple {budget : Nat} (multiple : Bool)
    (passes : ∀ visit ∈ progress.visits program budget, visit.fails = false) :
    (progress.withMultiple multiple).visits program budget = progress.visits program budget ∧
      explore program budget (progress.withMultiple multiple) =
        ((explore program budget progress).1,
          (explore program budget progress).2.withMultiple multiple) := by
  induction budget generalizing progress with
  | zero => exact ⟨rfl, rfl⟩
  | succ budget ih =>
      have here : (progress.visit program).fails = false := by
        refine passes _ ?_
        rw [visits, trail, List.map_cons]
        exact List.mem_cons_self
      have alike := step_withMultiple here multiple
      cases stepped : progress.step program with
      | mk ending next =>
          rw [stepped] at alike
          cases ending with
          | some ending =>
              rw [visits, visits, trail_of_ended stepped, trail_of_ended alike,
                explore_of_ended stepped, explore_of_ended alike]
              exact ⟨congrArg (fun visit => [visit]) (visit_withMultiple _ _ _), rfl⟩
          | none =>
              rw [visits, trail_of_step stepped] at passes
              obtain ⟨same, explored⟩ := ih fun visit member =>
                passes visit (List.mem_cons_of_mem _ member)
              rw [visits, visits, trail_of_step stepped, trail_of_step alike,
                explore_of_step stepped, explore_of_step alike, List.map_cons, List.map_cons,
                visit_withMultiple]
              exact ⟨congrArg (progress.visit program :: ·) same, explored⟩

theorem visit_of_visits_cons {budget : Nat} {first : Visit (Option Violation)}
    {rest : List (Visit (Option Violation))}
    (parted : progress.visits program budget = first :: rest) : progress.visit program = first := by
  cases budget with
  | zero => cases parted
  | succ budget =>
      rw [visits, trail, List.map_cons] at parted
      exact (List.cons.inj parted).1

/-- A search that makes further runs after the next one follows it. -/
theorem follows_of_visits {budget : Nat} {first : Visit (Option Violation)}
    {rest : List (Visit (Option Violation))}
    (parted : progress.visits program budget = first :: rest) (further : rest ≠ []) :
    ∃ next fewer, Follows program progress next ∧ next.visits program fewer = rest := by
  cases budget with
  | zero => cases parted
  | succ budget =>
      by_cases going : ∃ next, Follows program progress next
      · obtain ⟨next, follows⟩ := going
        rw [visits_of_follows follows] at parted
        exact ⟨next, budget, follows, (List.cons.inj parted).2⟩
      · rw [visits_of_not_follows going] at parted
        exact absurd (List.cons.inj parted).2.symm further

/--
A search that stops at violations makes the runs of one that goes on, up to the first that
fails, and finishes with it.
-/
theorem explore_of_first_failure {budget larger : Nat}
    {before after : List (Visit (Option Violation))} {visit : Visit (Option Violation)}
    (parted : progress.visits program budget = before ++ visit :: after)
    (passes : ∀ earlier ∈ before, earlier.fails = false) (fails : visit.fails = true)
    (enough : before.length < larger) :
    (∀ earlier ∈ before, earlier.fault = none) ∧
      (progress.withMultiple false).visits program larger = before ++ [visit] ∧
      (explore program larger (progress.withMultiple false)).1 ≠ .unfinished := by
  obtain ⟨larger, rfl⟩ : ∃ fewer, larger = fewer + 1 := ⟨larger - 1, by omega⟩
  induction before generalizing progress budget larger with
  | nil =>
      have same := visit_of_visits_cons parted
      subst same
      have still : ((progress.withMultiple false).visit program).fails = true := by
        rw [visit_withMultiple]
        exact fails
      obtain ⟨last, stepped⟩ := step_of_fails still rfl
      rw [visits, trail_of_ended stepped, explore_of_ended stepped]
      refine ⟨List.forall_mem_nil _, ?_, fun unfinished => by cases unfinished⟩
      exact congrArg (fun only => [only]) (visit_withMultiple program progress false)
  | cons first before ih =>
      have same := visit_of_visits_cons parted
      subst same
      obtain ⟨here, passes⟩ := List.forall_mem_cons.mp passes
      obtain ⟨next, fewer, follows, parted⟩ := follows_of_visits parted (by simp)
      obtain ⟨larger, rfl⟩ : ∃ fewer, larger = fewer + 1 := by
        rw [List.length_cons] at enough
        exact ⟨larger - 1, by omega⟩
      have alike := step_withMultiple here false
      rw [follows.stepped] at alike
      obtain ⟨unfaulted, made, ended⟩ :=
        ih parted passes larger (Nat.lt_of_succ_lt_succ enough)
      refine ⟨?_, ?_, ?_⟩
      · exact List.forall_mem_cons.mpr ⟨Visit.fault_of_goes_on follows.goes_on, unfaulted⟩
      · rw [visits, trail_of_step alike, List.map_cons, visit_withMultiple]
        exact congrArg (progress.visit program :: ·) made
      · rw [explore_of_step alike]
        exact ended

end Progress

/--
Whatever the program, a search that stops at violations is a beginning of one that goes
on.  If some run of the latter fails, the former makes exactly its runs up to the first
that does, and finishes with what they show: their number, their truncated ones, their
longest path, and one violation, which is the first that the latter records.  This is
so however the latter ends.  As long as no run fails, both make the same runs and end
alike.
-/
theorem stops_at_the_first_violation {σ : Type} (search : Search) (program : Program σ)
    (state : σ) (budget : Nat) :
    let stopping := search.withMultiple false
    let going := search.withMultiple true
    (∀ before visit after violation,
      going.visits program state budget = before ++ visit :: after →
      (∀ earlier ∈ before, earlier.fails = false) → visit.fault = none →
      visit.result = some violation →
      let made := before ++ [visit]
      let first : Record :=
        ⟨"#1", violation, visit.path.length, visit.path.map Generator.text⟩
      stopping.Makes program state made
        (.finished
          { violations := [first]
            pathsExplored := before.length + 1
            truncatedPaths := made.countP Visit.truncated
            maxDepth := longest made }) ∧
      (going.run program state budget).2.search.violations.head? = some first ∧
      ∀ summary, (going.run program state budget).1 = .finished summary →
        summary.violations.head? = some first) ∧
    ((∀ visit ∈ going.visits program state budget, visit.fails = false) →
      stopping.visits program state budget = going.visits program state budget ∧
      (stopping.run program state budget).1 = (going.run program state budget).1) := by
  intro stopping going
  refine ⟨?_, fun passes => ?_⟩
  · intro before visit after violation parted passes unfaulted violated made first
    have fails : visit.fails = true := Visit.fails_iff.mpr ⟨unfaulted, violation, violated⟩
    obtain ⟨before_unfaulted, made_eq, ended⟩ :=
      Progress.explore_of_first_failure parted passes fails (Nat.lt_succ_self _)
    have silent : ∀ earlier ∈ before, earlier.result = none := fun earlier member =>
      Visit.result_of_passes (passes earlier member) (before_unfaulted earlier member)
    have recorded : (going.run program state budget).2.search.violations.head? = some first := by
      have kept : before.filter (fun earlier => earlier.fault.isNone) = before := by
        rw [List.filter_eq_self]
        intro earlier member
        rw [before_unfaulted earlier member]
        rfl
      have found := congrArg Summary.violations (going.summary_run program state budget)
      rw [parted, List.filter_append, kept, List.filter_cons_of_pos (by rw [unfaulted]; rfl)]
        at found
      exact (congrArg List.head? found).trans (head?_records_of_first silent violated _)
    refine ⟨?_, recorded, fun summary finished => ?_⟩
    · have makes : stopping.Makes program state (stopping.visits program state (before.length + 1))
          (stopping.run program state (before.length + 1)).1 :=
        stopping.makes_of_run ended
      have all_unfaulted : ∀ visit ∈ made, visit.fault = none :=
        List.forall_mem_append.mpr ⟨before_unfaulted, List.forall_mem_singleton.mpr unfaulted⟩
      have visits_eq : stopping.visits program state (before.length + 1) = made := made_eq
      rw [makes.ending_eq, visits_eq, Ending.ofVisits_of_unfaulted all_unfaulted,
        closed_of_first silent violated] at makes
      exact makes
    · rw [← Progress.summary_of_finished finished]
      exact recorded
  · obtain ⟨same, explored⟩ := Progress.explore_withMultiple false passes
    have ended := congrArg Prod.fst explored
    exact ⟨same, ended⟩

/-- A number in the first two runs, the second of which fails, and a truth value later. -/
def wavering : Program Nat := fun made =>
  .choose (if made < 2 then .int 0 2 else .bool) fun _ =>
    .done (if made = 1 then some (.uncaught "second run") else none, made + 1)

theorem wavering_stops_at_the_first_violation :
    let search : Search := { options := {} }
    let going := search.withMultiple true
    let path := [(Request.int 0 2).pick 1]
    let first : Record := ⟨"#1", .uncaught "second run", 1, path.map Generator.text⟩
    let made : List (Visit (Option Violation)) :=
      [⟨[(Request.int 0 2).pick 0], [.value (.int 0)], false, none, none⟩,
        ⟨path, [.value (.int 1)], false, none, some (.uncaught "second run")⟩]
    (going.run wavering 0 3).1 = .faulted (.divergence 0 .intInterval .boolean) ∧
    (going.run wavering 0 3).2.search.violations.head? = some first ∧
    (search.withMultiple false).Makes wavering 0 made
      (.finished
        { violations := [first]
          pathsExplored := 2
          truncatedPaths := 0
          maxDepth := 1 }) := by
  intro search going path first made
  obtain ⟨stops, -⟩ := stops_at_the_first_violation search wavering 0 3
  have parted : going.visits wavering 0 3 =
      [⟨[(Request.int 0 2).pick 0], [.value (.int 0)], false, none, none⟩] ++
        ⟨path, [.value (.int 1)], false, none, some (.uncaught "second run")⟩ ::
          [⟨[(Request.int 0 2).pick 2], [.value (.bool false)], false,
            some (.divergence 0 .intInterval .boolean), none⟩] := by
    decide +kernel
  obtain ⟨makes, recorded, -⟩ :=
    stops _ _ _ (.uncaught "second run") parted (by decide) rfl rfl
  exact ⟨by decide +kernel, recorded, makes⟩

end ChoiceExplorer.Search
