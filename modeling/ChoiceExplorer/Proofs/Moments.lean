import ChoiceExplorer.Proofs.Keeping
import ChoiceExplorer.Proofs.Trail

/-!
# Moments of a run

A run makes its calls one after the other.  At every moment some steps have been
made, the execution stands where they left it, and a run is still to come.  The
steps made so far are a run of their own, so that all that is known of the end of
a run is known of each of its moments.
-/

namespace ChoiceExplorer

open Chance (Draw)

inductive Call where
  | tag (location : String)
  | ignoreRest
  | depth
  | choose (request : Request)
  | draw (source : Draw)

def Call.alone : Call → Run Unit
  | tag location => .tag location (.done ())
  | ignoreRest => .ignoreRest (.done ())
  | depth => .depth fun _ => .done ()
  | choose request => .choose request fun _ => .done ()
  | draw source => .draw source fun _ => .done ()

namespace Search

/-- A call with the execution that it finds. -/
structure Step where
  before : Execution
  call : Call

namespace Step

def request? (step : Step) : Option Request :=
  match step.call with
  | .choose request => some request
  | .draw source => step.before.options.request? source
  | .tag _ | .ignoreRest | .depth => none

def answer? (step : Step) : Option Answer :=
  match step.call with
  | .tag _ | .ignoreRest => none
  | .depth => some (.passed step.before.depth)
  | .choose request => some (.value (step.before.choose request).1)
  | .draw source => some (.value (step.before.draw source).1)

def after (step : Step) : Execution :=
  match step.call with
  | .tag location => step.before.tag location
  | .ignoreRest => step.before.ignoreRest
  | .depth => step.before
  | .choose request => (step.before.choose request).2
  | .draw source => (step.before.draw source).2

variable {step : Step} {request : Request}

/-- Enumerated or not, a choice point that is asked for is answered in one way. -/
theorem of_request (asked : step.request? = some request) :
    step.answer? = some (.value (step.before.choose request).1) ∧
      step.after = (step.before.choose request).2 := by
  obtain ⟨before, call⟩ := step
  cases call with
  | choose other =>
      cases asked
      exact ⟨rfl, rfl⟩
  | draw source =>
      have answered : before.draw source = before.choose request := Execution.draw_of_request asked
      show some (Answer.value (before.draw source).1) = _ ∧ (before.draw source).2 = _
      rw [answered]
      exact ⟨rfl, rfl⟩
  | tag location => cases asked
  | ignoreRest => cases asked
  | depth => cases asked

/-- A call asks for a choice point, gives up alternatives, or leaves the path alone. -/
theorem after_cases {motive : Execution → Prop} (step : Step)
    (chosen : ∀ request, step.request? = some request → motive (step.before.choose request).2)
    (retired : step.request? = none → motive step.before.ignoreRest)
    (noted : step.request? = none → ∀ random location,
      motive { step.before with random, location }) :
    motive step.after := by
  obtain ⟨before, call⟩ := step
  cases call with
  | tag location => exact noted rfl before.random (some location)
  | ignoreRest => exact retired rfl
  | depth => exact noted rfl before.random before.location
  | choose request => exact chosen request rfl
  | draw source =>
      show motive (before.draw source).2
      cases asked : before.options.request? source with
      | some request =>
          rw [Execution.draw_of_request asked]
          exact chosen request asked
      | none =>
          rw [Execution.draw_of_none asked]
          exact noted asked _ none

theorem perform_alone (step : Step) : step.before.perform step.call.alone = ((), step.after) := by
  obtain ⟨before, call⟩ := step
  cases call <;> rfl

end Step

def asked (steps : List Step) : Nat := steps.countP fun step => step.request?.isSome

section

variable {steps : List Step} {step : Step}

theorem asked_concat_of_some (requested : step.request?.isSome = true) :
    asked (steps ++ [step]) = asked steps + 1 := by
  rw [asked, asked, List.countP_append, List.countP_singleton, if_pos requested]

theorem asked_concat_of_none (unasked : step.request? = none) :
    asked (steps ++ [step]) = asked steps := by
  have none_asked : ¬step.request?.isSome = true := by
    rw [unasked]
    exact Bool.false_ne_true
  rw [asked, asked, List.countP_append, List.countP_singleton, if_neg none_asked, Nat.add_zero]

end

namespace Execution

variable {α β : Type}

/-- A run goes on with a call, and then with the run that its answer leads to. -/
inductive Calls (now : Execution) : Run α → Call → Run α → Prop where
  | tag (location : String) (next : Run α) : Calls now (.tag location next) (.tag location) next
  | ignoreRest (next : Run α) : Calls now (.ignoreRest next) .ignoreRest next
  | depth (next : Nat → Run α) : Calls now (.depth next) .depth (next now.depth)
  | choose (request : Request) (next : Value → Run α) :
      Calls now (.choose request next) (.choose request) (next (now.choose request).1)
  | draw (source : Draw) (next : Value → Run α) :
      Calls now (.draw source next) (.draw source) (next (now.draw source).1)

/-- A run that changes its result only makes the same calls. -/
theorem Calls.map {now : Execution} {run further : Run α} {call : Call} (change : α → β)
    (calls : now.Calls run call further) :
    now.Calls (change <$> run) call (change <$> further) := by
  cases calls with
  | tag location => exact .tag location _
  | ignoreRest next => exact .ignoreRest _
  | depth next => exact .depth fun count => change <$> next count
  | choose request next => exact .choose request fun value => change <$> next value
  | draw source next => exact .draw source fun value => change <$> next value

/--
A run that began somewhere has come to a moment: the steps made, the execution as
they left it, and the run still to come.
-/
inductive Moment (start : Execution) (run : Run α) : List Step → Execution → Run α → Prop where
  | opening : Moment start run [] start run
  | next {steps : List Step} {now : Execution} {rest further : Run α} {call : Call}
      (moment : Moment start run steps now rest) (calls : now.Calls rest call further) :
      Moment start run (steps ++ [⟨now, call⟩]) (Step.after ⟨now, call⟩) further

namespace Moment

variable {start now later : Execution} {run rest last : Run α} {steps more : List Step}

theorem trans (moment : start.Moment run steps now rest)
    (onward : now.Moment rest more later last) :
    start.Moment run (steps ++ more) later last := by
  induction onward with
  | opening =>
      rw [List.append_nil]
      exact moment
  | next _ calls ih =>
      rw [← List.append_assoc]
      exact ih.next calls

/-- From every moment a run comes to the same end. -/
theorem perform_eq (moment : start.Moment run steps now rest) :
    now.perform rest = start.perform run := by
  induction moment with
  | opening => rfl
  | next _ calls ih =>
      rw [← ih]
      cases calls <;> rfl

/-- Every run comes to its end. -/
theorem exists_end (start : Execution) (run : Run α) :
    ∃ steps, start.Moment run steps (start.perform run).2 (.done (start.perform run).1) := by
  induction run generalizing start with
  | done result => exact ⟨[], .opening⟩
  | tag location next ih =>
      obtain ⟨steps, moment⟩ := ih (start.tag location)
      exact ⟨_, (opening.next (.tag location next)).trans moment⟩
  | ignoreRest next ih =>
      obtain ⟨steps, moment⟩ := ih start.ignoreRest
      exact ⟨_, (opening.next (.ignoreRest next)).trans moment⟩
  | depth next ih =>
      obtain ⟨steps, moment⟩ := ih start.depth start
      exact ⟨_, (opening.next (.depth next)).trans moment⟩
  | choose request next ih =>
      obtain ⟨steps, moment⟩ := ih (start.choose request).1 (start.choose request).2
      exact ⟨_, (opening.next (.choose request next)).trans moment⟩
  | draw source next ih =>
      obtain ⟨steps, moment⟩ := ih (start.draw source).1 (start.draw source).2
      exact ⟨_, (opening.next (.draw source next)).trans moment⟩

/-- What every step keeps holds at every moment. -/
theorem keeps {motive : List Step → Execution → Prop}
    (kept : ∀ steps step, motive steps step.before → motive (steps ++ [step]) step.after)
    (moment : start.Moment run steps now rest) (holds : motive [] start) : motive steps now := by
  induction moment with
  | opening => exact holds
  | next _ _ ih => exact kept _ _ ih

/-- The steps made up to a moment are a run of their own. -/
theorem exists_run (moment : start.Moment run steps now rest) :
    ∃ made : Run Unit, start.perform made = ((), now) := by
  refine moment.keeps (motive := fun _ reached =>
    ∃ made : Run Unit, start.perform made = ((), reached)) ?_ ⟨.done (), rfl⟩
  rintro steps step ⟨made, performed⟩
  refine ⟨made.bind fun _ => step.call.alone, ?_⟩
  rw [perform_bind, performed]
  exact step.perform_alone

theorem extends_stack (moment : start.Moment run steps now rest) :
    now.options = start.options ∧ Extends start.stack.toList now.stack.toList := by
  obtain ⟨made, performed⟩ := moment.exists_run
  have kept := perform_extends start made
  rw [performed] at kept
  exact kept

/-- The first fault of a run stays. -/
theorem fault_eq {fault : Fault} (moment : start.Moment run steps now rest)
    (faulted : start.fault = some fault) : now.fault = some fault := by
  obtain ⟨made, performed⟩ := moment.exists_run
  have kept := perform_fault faulted made
  rw [performed] at kept
  exact kept

/-- A run that changes its result only comes to the same moments. -/
theorem map (change : α → β) (moment : start.Moment run steps now rest) :
    start.Moment (change <$> run) steps now (change <$> rest) := by
  induction moment with
  | opening => exact .opening
  | next _ calls ih => exact ih.next (calls.map change)

/-- A run that ends without a fault has had none. -/
theorem unfaulted (moment : start.Moment run steps now rest)
    (ended : (start.perform run).2.fault = none) : now.fault = none := by
  cases fault : now.fault with
  | none => rfl
  | some reason =>
      have kept := perform_fault fault rest
      rw [moment.perform_eq, ended] at kept
      cases kept

end Moment

end Execution

namespace Progress

variable {σ : Type}

def opening (progress : Progress σ) : Execution :=
  .start progress.search.options progress.search.stack

@[simp] theorem stack_opening (progress : Progress σ) :
    progress.opening.stack = progress.search.stack :=
  Execution.stack_start _ _

abbrev Moment (program : Program σ) (progress : Progress σ) (steps : List Step)
    (now : Execution) (rest : Run (Option Violation × σ)) : Prop :=
  progress.opening.Moment (program progress.state) steps now rest

end Progress

end Search

end ChoiceExplorer
