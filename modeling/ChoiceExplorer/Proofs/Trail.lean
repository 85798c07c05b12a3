import ChoiceExplorer.Proofs.Visit

/-!
# The trail of a search

The trail holds a search as it stands before each of its runs, and its visits
tell how these runs went.  One step is split into the ways it can go, and the
ending and the summary of every exploration are read off its visits.
-/

namespace ChoiceExplorer

/--
A program whose behaviour in a run depends only on what its calls are answered:
whatever state it keeps between its runs, it does the same and ends with the same
violation.
-/
def Program.Repeats {σ : Type} (program : Program σ) (body : Run (Option Search.Violation)) :
    Prop :=
  ∀ state, Prod.fst <$> program state = body

namespace Search

namespace Summary

def add (summary : Summary) (visit : Visit (Option Violation)) : Summary where
  violations := summary.violations ++ (visit.record? (summary.violations.length + 1)).toList
  pathsExplored := summary.pathsExplored + 1
  truncatedPaths :=
    if visit.truncated then summary.truncatedPaths + 1 else summary.truncatedPaths
  maxDepth := max summary.maxDepth visit.path.length

def ofVisits (visits : List (Visit (Option Violation))) : Summary := visits.foldl add {}

end Summary

def Ending.ofVisits (summary : Summary) : List (Visit (Option Violation)) → Ending
  | [] => .finished summary
  | visit :: visits =>
      match visit.fault with
      | some fault => .faulted fault
      | none => ofVisits (summary.add visit) visits

namespace Progress

variable {σ : Type} {program : Program σ} {progress next : Progress σ} {options : Options}

def left (program : Program σ) (progress : Progress σ) : ChoiceStack :=
  (progress.attempt program).2.stack

def visit (program : Program σ) (progress : Progress σ) : Visit (Option Violation) :=
  ((Execution.start progress.search.options progress.search.stack).visit
    (program progress.state)).map Prod.fst

@[simp] theorem visit_path : (progress.visit program).path =
    (progress.left program).toList.map Generator.bare := rfl

@[simp] theorem visit_fault : (progress.visit program).fault =
    (progress.attempt program).2.fault := rfl

@[simp] theorem visit_result : (progress.visit program).result =
    (progress.attempt program).1.1 := rfl

/-- A search turns from one run to the next. -/
structure Follows (program : Program σ) (progress next : Progress σ) : Prop where
  stepped : progress.step program = (none, next)
  goes_on : (progress.visit program).halts progress.search.options = false
  options_eq : next.search.options = progress.search.options
  stack_eq : (progress.left program).next? = some next.search.stack
  summary_eq : next.search.summary = progress.search.summary.add (progress.visit program)
  state_eq : next.state = (progress.attempt program).1.2

/-- The record of a visit is the one that the search keeps of its path. -/
theorem record?_visit (number : Nat) :
    (progress.visit program).record? number =
      (progress.attempt program).1.1.map fun violation =>
        Record.ofPath number violation (progress.left program) := by
  have texts : ((progress.left program).toList.map Generator.bare).map Generator.text =
      (progress.left program).texts := by
    simp [ChoiceStack.texts, Function.comp_def, Generator.bare_text]
  simp only [Visit.record?, visit_path, texts, List.length_map, ChoiceStack.length_toList]
  rfl

/-- The search once the next run is counted and its violation recorded. -/
def counted (program : Program σ) (progress : Progress σ) : Search :=
  let reached := { progress.search with stack := progress.left program }
  let counted := reached.count (progress.attempt program).2.truncated
  match (progress.attempt program).1.1 with
  | none => counted
  | some violation => counted.record violation

theorem counted_summary : (progress.counted program).summary =
    progress.search.summary.add (progress.visit program) := by
  cases found : (progress.attempt program).1.1 <;>
    simp [Summary.add, record?_visit, counted, found, summary, count, record] <;> rfl

theorem counted_stack : (progress.counted program).stack = progress.left program := by
  unfold counted
  cases (progress.attempt program).1.1 <;> rfl

theorem counted_options : (progress.counted program).options = progress.search.options := by
  unfold counted
  cases (progress.attempt program).1.1 <;> rfl

/-- A step without a fault: the search ends after the run or turns to the next path. -/
theorem step_of_no_fault (fault : (progress.attempt program).2.fault = none) :
    progress.step program =
      let reached := { progress with
        search := progress.counted program, state := (progress.attempt program).1.2 }
      match (progress.attempt program).1.1 with
      | none => reached.turn
      | some _ =>
          if progress.search.options.multipleErrors then (reached.tell .violated).turn
          else (reached.tell .violated).finish := by
  simp only [step, fault, conclude, counted]
  cases (progress.attempt program).1.1 <;> rfl

/-- Turning to the next path ends the search or keeps all but the path. -/
theorem turn_cases (progress : Progress σ) :
    (∃ last, progress.search.stack.next? = none ∧
      progress.turn = (some (.finished progress.search.summary), last)) ∨
    ∃ stack, progress.search.stack.next? = some stack ∧
      progress.turn = (none, { progress with search := { progress.search with stack } }) := by
  unfold turn
  cases progress.search.stack.next? with
  | none => exact .inl ⟨_, rfl, rfl⟩
  | some stack => exact .inr ⟨stack, rfl, rfl⟩

/-- Turning after a run that is counted and does not halt the search. -/
theorem turn_counted (reached : Progress σ) (search_eq : reached.search = progress.counted program)
    (state_eq : reached.state = (progress.attempt program).1.2)
    (goes_on : (progress.visit program).halts progress.search.options = false)
    (stepped : progress.step program = reached.turn) :
    (∃ last, (progress.left program).next? = none ∧
      progress.step program = (some (.finished (progress.counted program).summary), last)) ∨
    ∃ next, Follows program progress next := by
  rcases turn_cases reached with ⟨last, exhausted, turned⟩ | ⟨stack, found, turned⟩
  · rw [search_eq] at turned
    rw [search_eq, counted_stack] at exhausted
    exact .inl ⟨last, exhausted, stepped.trans turned⟩
  · rw [search_eq, counted_stack] at found
    refine .inr ⟨{ reached with search := { reached.search with stack } }, ?_⟩
    refine ⟨stepped.trans turned, goes_on, ?_, found, ?_, state_eq⟩
    · rw [search_eq]
      exact counted_options
    · rw [search_eq]
      exact counted_summary

/--
All that a step can do: it ends at a fault, or with the search, or turns to a
further run.
-/
theorem step_cases (program : Program σ) (progress : Progress σ) :
    (∃ fault last, (progress.visit program).fault = some fault ∧
      progress.step program = (some (.faulted fault), last)) ∨
    (∃ last, (progress.visit program).fault = none ∧
      ((progress.visit program).halts progress.search.options = true ∨
        (progress.left program).next? = none) ∧
      progress.step program =
        (some (.finished (progress.search.summary.add (progress.visit program))), last)) ∨
    ∃ next, Follows program progress next := by
  rw [visit_fault, ← counted_summary]
  cases fault : (progress.attempt program).2.fault with
  | some reason => exact .inl ⟨reason, _, rfl, by simp only [step, fault]; rfl⟩
  | none =>
      refine .inr ?_
      have stepped := step_of_no_fault fault
      let reached : Progress σ := { progress with
        search := progress.counted program, state := (progress.attempt program).1.2 }
      cases found : (progress.attempt program).1.1 with
      | none =>
          have goes_on : (progress.visit program).halts progress.search.options = false := by
            simp [Visit.halts, fault, found]
          simp only [found] at stepped
          rcases turn_counted reached rfl rfl goes_on stepped with ⟨last, exhausted, ended⟩ | turned
          · exact .inl ⟨last, rfl, .inr exhausted, ended⟩
          · exact .inr turned
      | some violation =>
          simp only [found] at stepped
          cases multiple : progress.search.options.multipleErrors with
          | false =>
              rw [multiple] at stepped
              exact .inl ⟨_, rfl, .inl (by simp [Visit.halts, found, multiple]), stepped⟩
          | true =>
              rw [multiple] at stepped
              have goes_on : (progress.visit program).halts progress.search.options = false := by
                simp [Visit.halts, fault, multiple]
              rcases turn_counted (reached.tell .violated) rfl rfl goes_on stepped with
                  ⟨last, exhausted, ended⟩ | turned
              · exact .inl ⟨last, rfl, .inr exhausted, ended⟩
              · exact .inr turned

/-- A step that goes on turns to a further run. -/
theorem follows_of_step (stepped : progress.step program = (none, next)) :
    Follows program progress next := by
  rcases step_cases program progress with ⟨_, _, _, ended⟩ | ⟨_, _, _, ended⟩ | ⟨turned, follows⟩
  · rw [ended] at stepped
    cases stepped
  · rw [ended] at stepped
    cases stepped
  · rw [follows.stepped] at stepped
    cases stepped
    exact follows

def trail (program : Program σ) : (budget : Nat) → Progress σ → List (Progress σ)
  | 0, _ => []
  | budget + 1, progress =>
      progress ::
        match progress.step program with
        | (some _, _) => []
        | (none, next) => trail program budget next

def visits (program : Program σ) (budget : Nat) (progress : Progress σ) :
    List (Visit (Option Violation)) :=
  (progress.trail program budget).map (visit program)

theorem trail_of_ended {ending : Ending} {last : Progress σ}
    (stepped : progress.step program = (some ending, last)) (budget : Nat) :
    progress.trail program (budget + 1) = [progress] := by
  rw [trail, stepped]

theorem trail_of_step (stepped : progress.step program = (none, next)) (budget : Nat) :
    progress.trail program (budget + 1) = progress :: next.trail program budget := by
  rw [trail, stepped]

/-- What the search keeps from run to run holds before each of its runs. -/
theorem of_mem_trail {motive : Progress σ → Prop}
    (turned : ∀ progress next, Follows program progress next → motive progress → motive next)
    {budget : Nat} {start reached : Progress σ} (holds : motive start)
    (member : reached ∈ start.trail program budget) : motive reached := by
  induction budget generalizing start with
  | zero => cases member
  | succ budget ih =>
      rw [trail] at member
      rcases List.mem_cons.mp member with rfl | later
      · exact holds
      · split at later
        · cases later
        · rename_i next stepped
          exact ih (turned start next (follows_of_step stepped) holds) later

theorem explore_of_ended {ending : Ending} {last : Progress σ}
    (stepped : progress.step program = (some ending, last)) (budget : Nat) :
    explore program (budget + 1) progress = (ending, last) := by
  rw [explore, stepped]

theorem explore_of_step (stepped : progress.step program = (none, next)) (budget : Nat) :
    explore program (budget + 1) progress = explore program budget next := by
  rw [explore, stepped]

/-- A search goes on after a run if nothing halts it and a path is left. -/
theorem follows_iff :
    (∃ next, Follows program progress next) ↔
      (progress.visit program).halts progress.search.options = false ∧
        (progress.left program).next?.isSome = true := by
  constructor
  · rintro ⟨next, follows⟩
    exact ⟨follows.goes_on, by rw [follows.stack_eq]; rfl⟩
  · rintro ⟨goes_on, found⟩
    rcases step_cases program progress with
        ⟨fault, _, faulted, -⟩ | ⟨_, -, halts | exhausted, -⟩ | follows
    · rw [Visit.fault_of_goes_on goes_on] at faulted
      cases faulted
    · rw [goes_on] at halts
      cases halts
    · rw [exhausted] at found
      cases found
    · exact follows

theorem visits_of_follows (follows : Follows program progress next) (budget : Nat) :
    progress.visits program (budget + 1) =
      progress.visit program :: next.visits program budget := by
  rw [visits, trail_of_step follows.stepped]
  rfl

theorem visits_of_not_follows (ends : ¬∃ next, Follows program progress next) (budget : Nat) :
    progress.visits program (budget + 1) = [progress.visit program] := by
  rcases step_cases program progress with ⟨_, _, _, stepped⟩ | ⟨_, _, _, stepped⟩ | follows
  · rw [visits, trail_of_ended stepped]
    rfl
  · rw [visits, trail_of_ended stepped]
    rfl
  · exact absurd follows ends

theorem visits_one (program : Program σ) (progress : Progress σ) :
    progress.visits program 1 = [progress.visit program] := by
  by_cases going : ∃ next, Follows program progress next
  · obtain ⟨next, follows⟩ := going
    exact visits_of_follows follows 0
  · exact visits_of_not_follows going 0

/-- An exploration uses up its budget, or its visits tell how it ends. -/
theorem explore_ending (program : Program σ) (budget : Nat) (progress : Progress σ) :
    ((explore program budget progress).1 = .unfinished ∧
      (visits program budget progress).length = budget) ∨
    (explore program budget progress).1 =
      .ofVisits progress.search.summary (visits program budget progress) := by
  induction budget generalizing progress with
  | zero => exact .inl ⟨rfl, rfl⟩
  | succ budget ih =>
      rcases step_cases program progress with
          ⟨fault, last, faulted, stepped⟩ | ⟨last, unfaulted, -, stepped⟩ | ⟨next, follows⟩
      · refine .inr ?_
        rw [visits, trail_of_ended stepped, explore_of_ended stepped]
        simp only [List.map_cons, Ending.ofVisits, faulted]
      · refine .inr ?_
        rw [visits, trail_of_ended stepped, explore_of_ended stepped]
        simp only [List.map_cons, List.map_nil, Ending.ofVisits, unfaulted]
      · have unfaulted := Visit.fault_of_goes_on follows.goes_on
        rw [visits, trail_of_step follows.stepped, explore_of_step follows.stepped]
        simp only [List.map_cons, List.length_cons, Ending.ofVisits, unfaulted,
          ← follows.summary_eq, Nat.add_right_cancel_iff]
        exact ih next

/-- A larger budget changes nothing once the search ends. -/
theorem explore_of_le (progress : Progress σ) {budget larger : Nat} (le : budget ≤ larger)
    (ended : (explore program budget progress).1 ≠ .unfinished) :
    explore program larger progress = explore program budget progress ∧
      progress.trail program larger = progress.trail program budget := by
  induction budget generalizing progress larger with
  | zero => exact absurd rfl ended
  | succ budget ih =>
      obtain ⟨larger, rfl⟩ : ∃ before, larger = before + 1 := ⟨larger - 1, by omega⟩
      cases stepped : progress.step program with
      | mk ending next =>
          cases ending with
          | some ending =>
              rw [explore_of_ended stepped, explore_of_ended stepped, trail_of_ended stepped,
                trail_of_ended stepped]
              exact ⟨rfl, rfl⟩
          | none =>
              rw [explore_of_step stepped] at ended
              obtain ⟨explored, same⟩ := ih next (Nat.le_of_succ_le_succ le) ended
              rw [explore_of_step stepped, explore_of_step stepped, trail_of_step stepped,
                trail_of_step stepped, same]
              exact ⟨explored, rfl⟩

end Progress

variable {σ : Type} {program : Program σ} {state : σ}

def outset (search : Search) (state : σ) : Progress σ :=
  Progress.tell { search := search.reset, state } .started

def trail (search : Search) (program : Program σ) (state : σ) (budget : Nat) :
    List (Progress σ) :=
  (search.outset state).trail program budget

def visits (search : Search) (program : Program σ) (state : σ) (budget : Nat) :
    List (Visit (Option Violation)) :=
  (search.trail program state budget).map (Progress.visit program)

/-- Given enough runs, a search makes exactly these runs and ends in this way. -/
def Makes (search : Search) (program : Program σ) (state : σ)
    (visits : List (Visit (Option Violation))) (ending : Ending) : Prop :=
  ending ≠ .unfinished ∧ ∃ needed, ∀ budget, needed ≤ budget →
    search.visits program state budget = visits ∧ (search.run program state budget).1 = ending

/-- A search that ends within some budget makes its runs within every larger one. -/
theorem makes_of_run (search : Search) {budget : Nat}
    (ended : (search.run program state budget).1 ≠ .unfinished) :
    search.Makes program state (search.visits program state budget)
      (search.run program state budget).1 := by
  refine ⟨ended, budget, fun larger le => ?_⟩
  obtain ⟨explored, same⟩ := Progress.explore_of_le (search.outset state) le ended
  exact ⟨congrArg (List.map _) same, congrArg Prod.fst explored⟩

namespace Makes

variable {search : Search} {visits others : List (Visit (Option Violation))}
  {ending another : Ending}

/-- The runs that a search makes are determined. -/
theorem unique (makes : search.Makes program state visits ending)
    (also : search.Makes program state others another) : visits = others ∧ ending = another := by
  obtain ⟨-, needed, enough⟩ := makes
  obtain ⟨-, least, sufficient⟩ := also
  have first := enough (max needed least) (Nat.le_max_left _ _)
  have second := sufficient (max needed least) (Nat.le_max_right _ _)
  exact ⟨first.1.symm.trans second.1, first.2.symm.trans second.2⟩

/-- The visits of a search tell how it ends. -/
theorem ending_eq (makes : search.Makes program state visits ending) :
    ending = .ofVisits {} visits := by
  obtain ⟨ended, needed, enough⟩ := makes
  obtain ⟨rfl, rfl⟩ := enough needed (Nat.le_refl needed)
  rcases Progress.explore_ending program needed (search.outset state) with
      ⟨unfinished, -⟩ | determined
  · exact absurd unfinished ended
  · exact determined

end Makes

end Search

end ChoiceExplorer
