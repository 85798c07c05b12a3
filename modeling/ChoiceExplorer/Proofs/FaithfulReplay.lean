import ChoiceExplorer.Proofs.Exploration
import ChoiceExplorer.Proofs.Moments

/-!
# Faithful replay

A program that does the same in every run stands, at every moment of a run, at a
place of its choice tree, and the choices recorded ahead mark a path from there.  So
every recorded choice has been made for the very request that it answers.
-/

namespace ChoiceExplorer.Search

namespace Execution

variable {α : Type} {execution start now : Execution} {request : Request}
  {next : Value → Run α} {run rest further : Run α} {call : Call} {steps : List Step}
  {recorded : Generator} {ahead : List Generator} {log : List Answer}

/-- The choices ahead mark a path of the tree of what a run still does. -/
def Fits (execution : Execution) (run : Run α) : Prop :=
  ∃ log, (run.tree execution.options (execution.course log)).Fits execution.ahead

theorem fits_of_nil (run : Run α) (reached : execution.ahead = []) : execution.Fits run := by
  refine ⟨[], ?_⟩
  rw [reached]
  exact ChoiceTree.fits_nil _

/-- A recorded choice that fits a request has been made for it, and leads on to what fits. -/
theorem serves_of_fits (unfaulted : execution.fault = none)
    (reached : execution.ahead = recorded :: ahead)
    (fits : execution.Fits (.choose request next)) :
    recorded.Serves request ∧ (execution.choose request).2.Fits
      (next (execution.choose request).1) := by
  obtain ⟨log, fits⟩ := fits
  rw [Run.tree, reached] at fits
  have fault : (execution.course log).fault = none := unfaulted
  by_cases offers : request.alternatives.size = 0
  · rw [Course.ask_of_empty fault offers] at fits
    cases Course.fits_of_closed _ (.inl rfl) fits
  · cases full : execution.options.isFull (execution.course log).path.length with
    | true =>
        obtain ⟨value, reached, closed, asked⟩ := Course.ask_of_closed (.inr full)
        rw [asked] at fits
        cases Course.fits_of_closed _ closed fits
    | false =>
        rw [Course.ask_of_room fault offers full] at fits
        obtain ⟨serves, -, deeper⟩ := fits
        rw [choose_of_recorded unfaulted reached serves.kind_eq, serves.value_eq]
        refine ⟨serves, log ++ [.value (request.value (recorded.taken - 1))], ?_⟩
        rw [course_pass serves]
        exact deeper

/-- The choices ahead go on marking a path when a request is answered. -/
theorem Fits.choose (fits : execution.Fits (.choose request next)) :
    (execution.choose request).2.Fits (next (execution.choose request).1) := by
  cases fault : execution.fault with
  | some reason =>
      obtain ⟨log, fits⟩ := fits
      have isSome : (execution.course log).fault.isSome = true := by
        rw [course, fault]
        rfl
      rw [Run.tree, Course.ask_of_fault isSome] at fits
      rw [choose_of_fault isSome]
      exact ⟨_, fits⟩
  | none =>
      cases reached : execution.ahead with
      | cons recorded ahead => exact (serves_of_fits fault reached fits).2
      | nil =>
          refine fits_of_nil _ ?_
          apply choose_cases (motive := fun answer => answer.2.ahead = [])
          case faulted => exact fun _ => reached
          case replayed =>
              intro recorded ahead _ left
              cases reached.symm.trans left
          case diverged =>
              intro recorded ahead _ left
              cases reached.symm.trans left
          case empty => exact fun _ _ _ => reached
          case forced => exact fun _ _ _ _ => reached
          case new => exact fun _ _ _ _ => reached

/-- The choices ahead go on marking a path when a call is made. -/
theorem Calls.fits (calls : execution.Calls run call further) (fits : execution.Fits run) :
    (Step.after ⟨execution, call⟩).Fits further := by
  cases calls with
  | tag => exact fits
  | ignoreRest =>
      obtain ⟨log, fits⟩ := fits
      refine ⟨log, ?_⟩
      show (further.tree execution.ignoreRest.options (execution.ignoreRest.course log)).Fits
        execution.ignoreRest.ahead
      rw [course_ignoreRest, ahead_ignoreRest, ignoreRest_options]
      rw [Run.tree] at fits
      split at fits
      · exact fits
      · exact fits
  | depth next =>
      obtain ⟨log, fits⟩ := fits
      have count : (execution.course log).path.length = execution.depth := by
        simp [course, Execution.depth]
      rw [Run.tree, count] at fits
      exact ⟨log ++ [Answer.passed execution.depth], fits⟩
  | choose request next => exact fits.choose
  | draw source next =>
      show (execution.draw source).2.Fits (next (execution.draw source).1)
      cases asked : execution.options.request? source with
      | some request =>
          rw [draw_of_request asked]
          refine Fits.choose ?_
          obtain ⟨log, fits⟩ := fits
          refine ⟨log, ?_⟩
          rw [Run.tree, asked] at fits
          exact fits
      | none =>
          rw [draw_of_none asked]
          obtain ⟨log, fits⟩ := fits
          rw [Run.tree, asked] at fits
          exact ⟨_, fits⟩

/-- At every moment of a run the choices ahead mark a path of the tree of what is to come. -/
theorem Moment.fits (moment : start.Moment run steps now rest) (fits : start.Fits run) :
    now.Fits rest := by
  induction moment with
  | opening => exact fits
  | next _ calls ih => exact calls.fits ih

/-- A recorded choice that fits a call has been made for what it requests. -/
theorem Calls.serves (calls : execution.Calls run call further) (fits : execution.Fits run)
    (requested : Step.request? ⟨execution, call⟩ = some request)
    (unfaulted : execution.fault = none) (reached : execution.ahead = recorded :: ahead) :
    recorded.Serves request := by
  cases calls with
  | tag location next => cases requested
  | ignoreRest next => cases requested
  | depth next => cases requested
  | choose other next =>
      cases requested
      exact (serves_of_fits unfaulted reached fits).1
  | draw source next =>
      have asked : execution.options.request? source = some request := requested
      obtain ⟨log, fits⟩ := fits
      rw [Run.tree, asked] at fits
      exact (serves_of_fits unfaulted reached ⟨log, fits⟩).1

end Execution

namespace Progress

variable {σ : Type} {program : Program σ} {body : Run (Option Violation)}
  {progress turn : Progress σ}

theorem fits_of_mem_trail (repeats : program.Repeats body) {budget : Nat}
    (fits : progress.Fits body) (member : turn ∈ progress.trail program budget) :
    turn.Fits body :=
  of_mem_trail (motive := fun turn => turn.Fits body)
    (fun _ _ follows fits => (follows.remaining_eq repeats fits).1) fits member

/-- A program that does the same in every run is served by what it has asked for. -/
theorem recorded_serves (repeats : program.Repeats body) (fits : turn.Fits body)
    {steps : List Step} {now : Execution} {rest further : Run (Option Violation × σ)}
    {call : Call} {request : Request} {recorded : Generator} {ahead : List Generator}
    (moment : turn.Moment program steps now rest) (calls : now.Calls rest call further)
    (requested : Step.request? ⟨now, call⟩ = some request) (unfaulted : now.fault = none)
    (reached : now.ahead = recorded :: ahead) : recorded.Serves request := by
  have moment := moment.map Prod.fst
  rw [repeats turn.state] at moment
  have begun : turn.opening.Fits body := ⟨[], fits⟩
  exact (calls.map Prod.fst).serves (moment.fits begun) requested unfaulted reached

end Progress

end ChoiceExplorer.Search
