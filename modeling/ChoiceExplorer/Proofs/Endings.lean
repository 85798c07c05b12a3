import ChoiceExplorer.Proofs.Summaries

/-!
# How a search ends

A search ends with a run that has a fault, or it finishes with what it has found.
A run with a fault is not counted, its violation is dropped, and observers are told
nothing of it.  So what a search has found are its runs without a fault.
-/

namespace ChoiceExplorer.Search.Progress

variable {σ : Type} {program : Program σ} {progress next last : Progress σ}
  {ending : Ending} {fault : Fault}

def stopped (program : Program σ) (progress : Progress σ) : Progress σ :=
  { progress with
    search := { progress.search with stack := progress.left program }
    state := (progress.attempt program).1.2 }

theorem step_of_fault (faulted : (progress.attempt program).2.fault = some fault) :
    progress.step program = (some (.faulted fault), progress.stopped program) := by
  simp only [step, faulted]
  rfl

theorem turn_ended (turned : progress.turn = (some ending, last)) :
    ending = .finished last.search.summary := by
  unfold turn at turned
  split at turned
  · cases turned
  · cases turned
    rfl

/-- A search that ends without a fault finishes with what it has found. -/
theorem step_ended (unfaulted : (progress.attempt program).2.fault = none)
    (stepped : progress.step program = (some ending, last)) :
    ending = .finished last.search.summary := by
  rw [step_of_no_fault unfaulted] at stepped
  cases found : (progress.attempt program).1.1 with
  | none =>
      rw [found] at stepped
      exact turn_ended stepped
  | some violation =>
      rw [found] at stepped
      cases multiple : progress.search.options.multipleErrors with
      | true =>
          rw [multiple] at stepped
          exact turn_ended stepped
      | false =>
          rw [multiple] at stepped
          cases stepped
          rfl

/-- What a search has found are its runs without a fault, counted one after the other. -/
theorem explore_summary (program : Program σ) (budget : Nat) (progress : Progress σ) :
    (explore program budget progress).2.search.summary =
      ((progress.visits program budget).filter fun visit => visit.fault.isNone).foldl
        Summary.add progress.search.summary := by
  induction budget generalizing progress with
  | zero => rfl
  | succ budget ih =>
      rcases step_cases program progress with
          ⟨fault, last, faulted, -⟩ | ⟨last, unfaulted, -, stepped⟩ | ⟨next, follows⟩
      · have stepped := step_of_fault faulted
        rw [visits, trail_of_ended stepped, explore_of_ended stepped]
        simp only [List.map_cons, List.map_nil, List.filter_cons, faulted, Option.isNone_some]
        rfl
      · have found := Ending.finished.inj (step_ended unfaulted stepped)
        rw [visits, trail_of_ended stepped, explore_of_ended stepped]
        simp only [List.map_cons, List.map_nil, List.filter_cons, unfaulted, Option.isNone_none]
        exact found.symm
      · have unfaulted := Visit.fault_of_goes_on follows.goes_on
        rw [visits_of_follows follows, explore_of_step follows.stepped, ih next,
          follows.summary_eq]
        simp only [List.filter_cons, unfaulted, Option.isNone_none, if_true, List.foldl_cons]

/-- A search that finishes gives what it has found. -/
theorem summary_of_finished {budget : Nat} {summary : Summary}
    (finished : (explore program budget progress).1 = .finished summary) :
    (explore program budget progress).2.search.summary = summary := by
  induction budget generalizing progress with
  | zero => cases finished
  | succ budget ih =>
      rcases step_cases program progress with
          ⟨fault, last, -, stepped⟩ | ⟨last, unfaulted, -, stepped⟩ | ⟨next, follows⟩
      · rw [explore_of_ended stepped] at finished
        cases finished
      · have found := step_ended unfaulted stepped
        rw [explore_of_ended stepped] at finished ⊢
        exact Ending.finished.inj (found.symm.trans finished)
      · rw [explore_of_step follows.stepped] at finished ⊢
        exact ih finished

/-- Between two runs observers are told of a violation at most. -/
theorem Follows.notices_eq (follows : Follows program progress next) :
    ∃ told : List View, next.notices = progress.notices ++ told.map .violated := by
  have stepped := follows.stepped
  rw [step_of_no_fault (Visit.fault_of_goes_on follows.goes_on)] at stepped
  have turned {reached : Progress σ} (turned : reached.turn = (none, next)) :
      next.notices = reached.notices := by
    unfold turn at turned
    split at turned
    · cases turned
      rfl
    · cases turned
  cases found : (progress.attempt program).1.1 with
  | none =>
      rw [found] at stepped
      exact ⟨[], (turned stepped).trans (List.append_nil _).symm⟩
  | some violation =>
      rw [found] at stepped
      cases multiple : progress.search.options.multipleErrors with
      | true =>
          rw [multiple] at stepped
          exact ⟨[_], turned stepped⟩
      | false =>
          rw [multiple] at stepped
          cases stepped

/--
A search ends at the first run with a fault.  It has then found what the runs before
show, and keeps what observers were told before this run.
-/
theorem explore_of_fault {budget place : Nat} {turn : Progress σ}
    (here : (progress.trail program budget)[place]? = some turn)
    (faulted : (turn.attempt program).2.fault = some fault) :
    explore program budget progress = (.faulted fault, turn.stopped program) ∧
      turn.search.summary =
        ((progress.visits program budget).take place).foldl Summary.add
          progress.search.summary := by
  induction budget generalizing progress place with
  | zero => cases here
  | succ budget ih =>
      cases place with
      | zero =>
          cases here
          exact ⟨explore_of_ended (step_of_fault faulted) budget, rfl⟩
      | succ place =>
          rcases step_cases program progress with
              ⟨_, _, _, stepped⟩ | ⟨_, _, _, stepped⟩ | ⟨next, follows⟩
          · rw [trail_of_ended stepped] at here
            cases here
          · rw [trail_of_ended stepped] at here
            cases here
          · rw [trail_of_step follows.stepped, List.getElem?_cons_succ] at here
            obtain ⟨explored, found⟩ := ih here
            rw [explore_of_step follows.stepped, visits_of_follows follows, List.take_succ_cons,
              List.foldl_cons, ← follows.summary_eq]
            exact ⟨explored, found⟩

/-- A search that ends with a fault has made a run with this fault. -/
theorem exists_fault {budget : Nat}
    (ended : (explore program budget progress).1 = .faulted fault) :
    ∃ (place : Nat) (turn : Progress σ), (progress.trail program budget)[place]? = some turn ∧
      (turn.attempt program).2.fault = some fault := by
  induction budget generalizing progress with
  | zero => cases ended
  | succ budget ih =>
      rcases step_cases program progress with
          ⟨other, last, faulted, stepped⟩ | ⟨last, unfaulted, -, stepped⟩ | ⟨next, follows⟩
      · rw [explore_of_ended stepped] at ended
        cases ended
        exact ⟨0, progress, rfl, faulted⟩
      · rw [explore_of_ended stepped] at ended
        cases ended
      · rw [explore_of_step follows.stepped] at ended
        obtain ⟨place, turn, there, faulted⟩ := ih ended
        refine ⟨place + 1, turn, ?_, faulted⟩
        rw [trail_of_step follows.stepped, List.getElem?_cons_succ]
        exact there

end ChoiceExplorer.Search.Progress

namespace ChoiceExplorer.Search

/-- What a search has found in the end are its runs without a fault. -/
theorem summary_run {σ : Type} (search : Search) (program : Program σ) (state : σ)
    (budget : Nat) :
    (search.run program state budget).2.search.summary =
      .closed ((search.visits program state budget).filter fun visit => visit.fault.isNone) :=
  (Progress.explore_summary program budget (search.outset state)).trans (Summary.ofVisits_eq _)

end ChoiceExplorer.Search
