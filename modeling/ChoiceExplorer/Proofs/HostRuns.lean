import ChoiceExplorer.Host.Basic

/-!
# Runs of a host

A run of a host is a search whose audience hears of it while it goes on, and a last
report.  The search itself depends neither on the audience nor on the report.
-/

namespace ChoiceExplorer.Host

open Output (Failure)
open Search (Summary)

variable {σ : Type} {host : Host} {program : Program σ} {state : σ} {budget : Nat}

def heard (host : Host) (program : Program σ) (state : σ) (budget : Nat) : Audience :=
  (host.search.run program state budget).2.notices.foldl Audience.hear host.audience

def searched (host : Host) (program : Program σ) (state : σ) (budget : Nat) : Host :=
  host.afterSearch (host.search.run program state budget).2.search
    (host.heard program state budget)

def errorOf? : Search.Ending → Option Error
  | .faulted fault => some (.search fault)
  | .unfinished => some .unfinished
  | .finished _ => none

/-- A search without a summary ends the run before the last report. -/
theorem run_of_error {error : Error}
    (ended : errorOf? (host.search.run program state budget).1 = some error) :
    host.run program state budget =
      ⟨.error error, host.searched program state budget,
        (host.search.run program state budget).2.state,
        (host.heard program state budget).events⟩ := by
  cases ending : (host.search.run program state budget).1 with
  | faulted fault =>
      rw [ending] at ended
      cases ended
      simp only [run, searched, heard, ending]
  | unfinished =>
      rw [ending] at ended
      cases ended
      simp only [run, searched, heard, ending]
  | finished summary =>
      rw [ending] at ended
      cases ended

theorem finished_of_no_error {ending : Search.Ending} (ended : errorOf? ending = none) :
    ∃ summary, ending = .finished summary := by
  cases ending with
  | finished summary => exact ⟨summary, rfl⟩
  | faulted fault => cases ended
  | unfinished => cases ended

theorem run_of_failure {summary : Summary} {cause : Failure}
    (finished : (host.search.run program state budget).1 = .finished summary)
    (failed : (host.heard program state budget).failure = some cause) :
    host.run program state budget =
      ⟨.error (.report cause), host.searched program state budget,
        (host.search.run program state budget).2.state,
        (host.heard program state budget).events⟩ := by
  rw [heard] at failed
  simp only [run, searched, heard, finished, failed]

/-- How a run ends by the result of its last report. -/
def concluded (summary : Summary) : Except Failure Unit → Except Error Summary
  | .ok () => .ok summary
  | .error cause => .error (.report cause)

theorem run_of_finished {summary : Summary}
    (finished : (host.search.run program state budget).1 = .finished summary)
    (unfailed : (host.heard program state budget).failure = none) :
    let searched := host.searched program state budget
    let step := searched.report.finish summary searched.surroundings
    host.run program state budget =
      ⟨concluded summary step.result,
        { searched with report := step.report, surroundings := step.surroundings },
        (host.search.run program state budget).2.state,
        (host.heard program state budget).events⟩ := by
  rw [heard] at unfailed
  simp only [run, searched, heard, finished, unfailed]
  split <;> rename_i result <;> rw [result] <;> rfl

/-- Whatever becomes of the report, the search of a run is the search alone. -/
theorem run_search (host : Host) (program : Program σ) (state : σ) (budget : Nat) :
    let outcome := host.run program state budget
    let searched := (host.search.run program state budget).2
    outcome.state = searched.state ∧ outcome.host.search = searched.search ∧
      outcome.host.attached = (host.heard program state budget).attached ∧
      outcome.events = (host.heard program state budget).events := by
  cases ended : errorOf? (host.search.run program state budget).1 with
  | some error =>
      rw [run_of_error ended]
      exact ⟨rfl, rfl, rfl, rfl⟩
  | none =>
      obtain ⟨summary, ending⟩ := finished_of_no_error ended
      cases failure : (host.heard program state budget).failure with
      | some cause =>
          rw [run_of_failure ending failure]
          exact ⟨rfl, rfl, rfl, rfl⟩
      | none =>
          rw [run_of_finished ending failure]
          exact ⟨rfl, rfl, rfl, rfl⟩

/-- The report of a run has counted what it had counted when the search ended. -/
theorem run_report (host : Host) (program : Program σ) (state : σ) (budget : Nat) :
    let outcome := host.run program state budget
    outcome.host.report.lastErrorId = (host.heard program state budget).report.lastErrorId := by
  cases ended : errorOf? (host.search.run program state budget).1 with
  | some error =>
      rw [run_of_error ended]
      rfl
  | none =>
      obtain ⟨summary, ending⟩ := finished_of_no_error ended
      cases failure : (host.heard program state budget).failure with
      | some cause =>
          rw [run_of_failure ending failure]
          rfl
      | none =>
          rw [run_of_finished ending failure]
          rfl

structure Job where
  State : Type
  program : Program State
  state : State
  budget : Nat

def afterJob (host : Host) (job : Job) : Host :=
  (host.run job.program job.state job.budget).host

def afterJobs (host : Host) (jobs : List Job) : Host := jobs.foldl afterJob host

end ChoiceExplorer.Host
