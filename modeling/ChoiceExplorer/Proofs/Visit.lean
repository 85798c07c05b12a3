import ChoiceExplorer.Search.Explore

/-!
# The runs of a search

A visit is what can be told of one run: the choices on its path, the answers of
its calls and how it ended.  The trail of a search lists its states before each
run.  An exploration is determined by its visits: they fix the ending and the
summary.
-/

namespace ChoiceExplorer

namespace Generator

/-- A generator as the program knows it, apart from its place and its retirement. -/
def bare (generator : Generator) : Generator :=
  { generator with retired := false, location := none }

theorem bare_retire (generator : Generator) : generator.retire.bare = generator.bare := rfl

theorem bare_text (generator : Generator) : generator.bare.text = generator.text := rfl

end Generator

namespace Search

inductive Answer where
  /-- The value of a choice or of a draw. -/
  | value (value : Value)
  /-- The number of choice points passed. -/
  | passed (count : Nat)
  deriving DecidableEq

structure Visit (α : Type) where
  /-- The choices on its path, oldest first. -/
  path : List Generator
  /-- What its calls were answered, in order. -/
  answers : List Answer
  truncated : Bool
  fault : Option Fault
  result : α
  deriving DecidableEq

namespace Visit

variable {α β : Type}

def map (change : α → β) (visit : Visit α) : Visit β :=
  { visit with result := change visit.result }

/-- A run with calls before its first one. -/
def after (before : List Answer) (visit : Visit α) : Visit α :=
  { visit with answers := before ++ visit.answers }

@[simp] theorem after_nil (visit : Visit α) : visit.after [] = visit := rfl

@[simp] theorem after_after (first second : List Answer) (visit : Visit α) :
    (visit.after second).after first = visit.after (first ++ second) := by
  simp [after]

/-- Whether the search ends with a run, whatever is left to explore. -/
def halts (options : Options) (visit : Visit (Option Violation)) : Bool :=
  visit.fault.isSome || (visit.result.isSome && !options.multipleErrors)

theorem fault_of_goes_on {options : Options} {visit : Visit (Option Violation)}
    (goes_on : visit.halts options = false) : visit.fault = none := by
  rw [halts, Bool.or_eq_false_iff] at goes_on
  cases fault : visit.fault with
  | none => rfl
  | some reason => simp [fault] at goes_on

def record? (number : Nat) (visit : Visit (Option Violation)) : Option Record :=
  visit.result.map fun violation =>
    ⟨errorId number, violation, visit.path.length, visit.path.map Generator.text⟩

end Visit

namespace Execution

variable {α β : Type}

def answers : Execution → Run α → List Answer
  | _, .done _ => []
  | execution, .tag location next => answers (execution.tag location) next
  | execution, .ignoreRest next => answers execution.ignoreRest next
  | execution, .depth next =>
      .passed execution.depth :: answers execution (next execution.depth)
  | execution, .choose request next =>
      let (value, execution) := execution.choose request
      .value value :: answers execution (next value)
  | execution, .draw source next =>
      let (value, execution) := execution.draw source
      .value value :: answers execution (next value)

def visit (execution : Execution) (run : Run α) : Visit α :=
  let (result, final) := execution.perform run
  ⟨final.stack.toList.map Generator.bare, execution.answers run, final.truncated, final.fault,
    result⟩

theorem answers_map (change : α → β) (execution : Execution) (run : Run α) :
    execution.answers (change <$> run) = execution.answers run := by
  induction run generalizing execution with
  | done result => rfl
  | tag location next ih => exact ih (execution.tag location)
  | ignoreRest next ih => exact ih execution.ignoreRest
  | depth next ih => exact congrArg (Answer.passed execution.depth :: ·) (ih _ execution)
  | choose request next ih =>
      exact congrArg (Answer.value (execution.choose request).1 :: ·) (ih _ _)
  | draw source next ih => exact congrArg (Answer.value (execution.draw source).1 :: ·) (ih _ _)

theorem perform_map (change : α → β) (execution : Execution) (run : Run α) :
    execution.perform (change <$> run) =
      (change (execution.perform run).1, (execution.perform run).2) :=
  perform_bind execution run fun result => .done (change result)

theorem visit_map (change : α → β) (execution : Execution) (run : Run α) :
    execution.visit (change <$> run) = (execution.visit run).map change := by
  simp only [visit, perform_map, answers_map, Visit.map]

end Execution

end Search

end ChoiceExplorer
