import ChoiceExplorer.Program.Script
import ChoiceExplorer.Proofs.Keeping
import ChoiceExplorer.Proofs.Trail

/-!
# Runs of scripts

Every script asks for a bounded number of choices in a run.  A script that never
asks for the number of the run does the same in every run.
-/

namespace ChoiceExplorer

namespace Run

variable {α β : Type}

/-- A run that asks for no more than so many choices, whatever it is answered. -/
def Within : Run α → Nat → Prop
  | done _, _ => True
  | tag _ next, bound => next.Within bound
  | ignoreRest next, bound => next.Within bound
  | depth next, bound => ∀ count, (next count).Within bound
  | choose _ next, bound => 0 < bound ∧ ∀ value, (next value).Within (bound - 1)
  | draw _ next, bound => 0 < bound ∧ ∀ value, (next value).Within (bound - 1)

namespace Within

theorem mono {run : Run α} {bound larger : Nat} (within : run.Within bound)
    (le : bound ≤ larger) : run.Within larger := by
  induction run generalizing bound larger with
  | done result => trivial
  | tag location next ih => exact ih within le
  | ignoreRest next ih => exact ih within le
  | depth next ih => exact fun count => ih count (within count) le
  | choose request next ih =>
      exact ⟨by have := within.1; omega, fun value => ih value (within.2 value) (by omega)⟩
  | draw source next ih =>
      exact ⟨by have := within.1; omega, fun value => ih value (within.2 value) (by omega)⟩

theorem bind {run : Run α} {next : α → Run β} {first second : Nat}
    (before : run.Within first) (after : ∀ result, (next result).Within second) :
    (run.bind next).Within (first + second) := by
  induction run generalizing first with
  | done result => exact (after result).mono (Nat.le_add_left _ _)
  | tag location rest ih => exact ih before
  | ignoreRest rest ih => exact ih before
  | depth rest ih => exact fun count => ih count (before count)
  | choose request rest ih =>
      obtain ⟨positive, before⟩ := before
      refine ⟨by omega, fun value => (ih value (before value)).mono (by omega)⟩
  | draw source rest ih =>
      obtain ⟨positive, before⟩ := before
      refine ⟨by omega, fun value => (ih value (before value)).mono (by omega)⟩

theorem choices_le {run : Run α} {bound : Nat} (within : run.Within bound)
    (execution : Search.Execution) : execution.choices run ≤ bound := by
  induction run generalizing bound execution with
  | done result => exact Nat.zero_le _
  | tag location next ih => exact ih within (execution.tag location)
  | ignoreRest next ih => exact ih within execution.ignoreRest
  | depth next ih => exact ih _ (within _) execution
  | choose request next ih =>
      obtain ⟨positive, within⟩ := within
      have fewer := ih _ (within (execution.choose request).1) (execution.choose request).2
      simp only [Search.Execution.choices]
      omega
  | draw source next ih =>
      obtain ⟨positive, within⟩ := within
      have fewer := ih _ (within (execution.draw source).1) (execution.draw source).2
      simp only [Search.Execution.choices]
      split <;> omega

end Within

end Run

namespace Script

theorem Query.ask_within (query : Query) (number : Nat) : (query.ask number).Within 1 := by
  cases query with
  | choose request => exact ⟨Nat.one_pos, fun _ => trivial⟩
  | draw source => exact ⟨Nat.one_pos, fun _ => trivial⟩
  | depth => exact fun _ => trivial
  | runNumber => trivial

theorem andThen_within {first : Run Progress} {next : Memory → Run Progress} {bound more : Nat}
    (before : first.Within bound) (after : ∀ memory, (next memory).Within more) :
    (andThen first next).Within (bound + more) := by
  refine before.bind fun progress => ?_
  cases progress with
  | goOn memory => exact after memory
  | ended violation memory => trivial

theorem repeated_within {body : Memory → Run Progress} {bound : Nat}
    (within : ∀ memory, (body memory).Within bound) (times : Nat) (memory : Memory) :
    (repeated body times memory).Within (times * bound) := by
  induction times generalizing memory with
  | zero => trivial
  | succ times ih =>
      rw [Nat.succ_mul, Nat.add_comm (times * bound)]
      exact andThen_within (within memory) ih

mutual

def Statement.asks : Statement → Nat
  | .branch _ agreed otherwise => asksAll agreed + asksAll otherwise
  | .loop times body => times * asksAll body
  | .ask .. => 1
  | .leave | .fail .. | .tag _ | .ignoreRest => 0

def asksAll : List Statement → Nat
  | [] => 0
  | statement :: rest => statement.asks + asksAll rest

end

mutual

theorem Statement.perform_within (number : Nat) : (statement : Statement) → (memory : Memory) →
    (statement.perform number memory).Within statement.asks
  | .branch condition agreed otherwise, memory => by
      rw [Statement.perform, Statement.asks]
      split
      · exact (performAll_within number agreed memory).mono (Nat.le_add_right _ _)
      · exact (performAll_within number otherwise memory).mono (Nat.le_add_left _ _)
  | .loop times body, memory => by
      rw [Statement.perform, Statement.asks]
      exact repeated_within (performAll_within number body) times memory
  | .ask query location keep, memory => by
      let noted (text : String) : Run Progress := .done (.goOn (memory.note text keep))
      have within : ((query.ask number).bind noted).Within (1 + 0) :=
        (query.ask_within number).bind fun _ => trivial
      cases location with
      | none => exact within
      | some location => exact within
  | .leave, _ => trivial
  | .fail .., _ => trivial
  | .tag _, _ => trivial
  | .ignoreRest, _ => trivial

theorem performAll_within (number : Nat) : (script : List Statement) → (memory : Memory) →
    (performAll number script memory).Within (asksAll script)
  | [], _ => trivial
  | statement :: rest, memory => by
      rw [performAll, asksAll]
      exact andThen_within (statement.perform_within number memory) (performAll_within number rest)

end

/-- In every run a script asks for no more choices than its text shows. -/
theorem program_within (script : List Statement) (logs : Logs) :
    (program script logs).Within (asksAll script) := by
  have within := performAll_within (logs.size + 1) script {}
  have closed : (program script logs).Within (asksAll script + 0) := by
    refine within.bind fun progress => ?_
    cases progress <;> trivial
  exact closed

/--
A property of runs that the statements of a kind have, if they are simple, and
that putting runs together keeps.
-/
structure Carries (number : Nat) (good : Statement → Prop) (motive : Run Progress → Prop) :
    Prop where
  branch : ∀ {condition agreed otherwise}, good (.branch condition agreed otherwise) →
    (∀ statement ∈ agreed, good statement) ∧ ∀ statement ∈ otherwise, good statement
  loop : ∀ {times body}, good (.loop times body) → ∀ statement ∈ body, good statement
  done : ∀ progress, motive (.done progress)
  bind : ∀ {run next}, motive run → (∀ progress, motive (next progress)) →
    motive (run.bind next)
  tag : ∀ {location run}, motive run → motive (.tag location run)
  ignoreRest : good .ignoreRest → ∀ {run}, motive run → motive (.ignoreRest run)
  ask : ∀ {query location keep}, good (.ask query location keep) → ∀ memory : Memory,
    motive ((query.ask number).bind fun text => .done (.goOn (memory.note text keep)))

namespace Carries

variable {number : Nat} {good : Statement → Prop} {motive : Run Progress → Prop}

theorem andThen (carries : Carries number good motive) {first : Run Progress}
    {next : Memory → Run Progress} (before : motive first)
    (after : ∀ memory, motive (next memory)) : motive (andThen first next) := by
  refine carries.bind before fun progress => ?_
  cases progress with
  | goOn memory => exact after memory
  | ended violation memory => exact carries.done _

theorem repeated (carries : Carries number good motive) {body : Memory → Run Progress}
    (each : ∀ memory, motive (body memory)) (times : Nat) (memory : Memory) :
    motive (repeated body times memory) := by
  induction times generalizing memory with
  | zero => exact carries.done _
  | succ times ih => exact carries.andThen (each memory) ih

mutual

theorem perform (carries : Carries number good motive) : (statement : Statement) →
    good statement → (memory : Memory) → motive (statement.perform number memory)
  | .branch condition agreed otherwise, is_good, memory => by
      rw [Statement.perform]
      split
      · exact carries.performAll agreed (carries.branch is_good).1 memory
      · exact carries.performAll otherwise (carries.branch is_good).2 memory
  | .loop times body, is_good, memory => by
      rw [Statement.perform]
      exact carries.repeated (carries.performAll body (carries.loop is_good)) times memory
  | .ask query location keep, is_good, memory => by
      cases location with
      | none => exact carries.ask is_good memory
      | some location => exact carries.tag (carries.ask is_good memory)
  | .leave, _, _ => carries.done _
  | .fail .., _, _ => carries.done _
  | .tag _, _, _ => carries.tag (carries.done _)
  | .ignoreRest, is_good, _ => carries.ignoreRest is_good (carries.done _)

theorem performAll (carries : Carries number good motive) : (script : List Statement) →
    (∀ statement ∈ script, good statement) → (memory : Memory) →
    motive (performAll number script memory)
  | [], _, _ => carries.done _
  | statement :: rest, all_good, memory => by
      rw [List.forall_mem_cons] at all_good
      exact carries.andThen (carries.perform statement all_good.1 memory)
        (carries.performAll rest all_good.2)

end

end Carries

mutual

def Statement.numberless : Statement → Bool
  | .branch _ agreed otherwise => numberlessAll agreed && numberlessAll otherwise
  | .loop _ body => numberlessAll body
  | .ask query .. => query ≠ .runNumber
  | .leave | .fail .. | .tag _ | .ignoreRest => true

def numberlessAll : List Statement → Bool
  | [] => true
  | statement :: rest => statement.numberless && numberlessAll rest

end

theorem Query.ask_eq {query : Query} (numberless : query ≠ .runNumber) (number other : Nat) :
    query.ask number = query.ask other := by
  cases query with
  | runNumber => exact absurd rfl numberless
  | choose request => rfl
  | draw source => rfl
  | depth => rfl

mutual

theorem Statement.perform_eq (number other : Nat) : (statement : Statement) →
    statement.numberless = true → statement.perform number = statement.perform other
  | .branch condition agreed otherwise, numberless => by
      rw [Statement.numberless, Bool.and_eq_true] at numberless
      funext memory
      rw [Statement.perform, Statement.perform, performAll_eq number other agreed numberless.1,
        performAll_eq number other otherwise numberless.2]
  | .loop times body, numberless => by
      rw [Statement.numberless] at numberless
      funext memory
      rw [Statement.perform, Statement.perform, performAll_eq number other body numberless]
  | .ask query location keep, numberless => by
      rw [Statement.numberless, decide_eq_true_eq] at numberless
      funext memory
      cases location <;> simp only [Statement.perform, query.ask_eq numberless number other]
  | .leave, _ => rfl
  | .fail .., _ => rfl
  | .tag _, _ => rfl
  | .ignoreRest, _ => rfl

theorem performAll_eq (number other : Nat) : (script : List Statement) →
    numberlessAll script = true → performAll number script = performAll other script
  | [], _ => rfl
  | statement :: rest, numberless => by
      rw [numberlessAll, Bool.and_eq_true] at numberless
      funext memory
      rw [performAll, performAll, statement.perform_eq number other numberless.1,
        performAll_eq number other rest numberless.2]

end

def Progress.violation : Progress → Option Search.Violation
  | .goOn _ => none
  | .ended violation _ => violation

def body (script : List Statement) : Run (Option Search.Violation) :=
  Progress.violation <$> performAll 1 script {}

/-- A script that never asks for the number of the run does the same in every run. -/
theorem program_repeats {script : List Statement} (numberless : numberlessAll script = true) :
    (program script).Repeats (body script) := by
  intro logs
  rw [body, performAll_eq 1 (logs.size + 1) script numberless]
  let close (progress : Progress) : Run (Option Search.Violation × Logs) :=
    match progress with
    | .goOn memory => .done (none, logs.push memory.log)
    | .ended violation memory => .done (violation, logs.push memory.log)
  have closed (progress : Progress) : Prod.fst <$> close progress = pure progress.violation := by
    cases progress <;> rfl
  show Prod.fst <$> ((performAll (logs.size + 1) script {}) >>= close) = _
  rw [map_bind, map_eq_pure_bind]
  exact congrArg _ (funext closed)

end Script

end ChoiceExplorer
