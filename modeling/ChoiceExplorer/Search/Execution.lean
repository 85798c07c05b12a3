import ChoiceExplorer.Program.Run
import ChoiceExplorer.Search.Options
import ChoiceExplorer.Search.Record

/-!
# Executions

An execution answers the calls of one run.  It first replays the choices
recorded on the stack, oldest first, and then extends the path by new ones.
The generators passed and those still ahead are kept apart, so that the place
reached in the path is where the two lists meet.
-/

namespace ChoiceExplorer.Search

open Chance (Draw Stream)

/-- Why a run cannot count. -/
inductive Fault where
  /-- A recorded choice point is not of the requested kind. -/
  | divergence (depth : Nat) (recorded requested : Kind)
  /-- A new choice point has no alternatives. -/
  | emptyChoice (id : String)
  deriving DecidableEq

def Fault.message : Fault → String
  | divergence depth recorded requested =>
      "replay diverged at depth " ++ toString depth ++ ": recorded " ++ recorded.qualifiedName ++
        ", program requested " ++ requested.qualifiedName
  | emptyChoice id => "choice generator '" ++ id ++ "' offers no choices"

structure Execution where
  options : Options
  /-- The generators passed in this run, newest first. -/
  passed : List Generator := []
  /-- The generators recorded in earlier runs and not yet reached, oldest first. -/
  ahead : List Generator
  random : Stream
  /-- Where the next choice point stands, if the program has said so. -/
  location : Option String := none
  truncated : Bool := false
  /-- The first fault of the run; from then on requests get fallback values. -/
  fault : Option Fault := none

namespace Execution

def start (options : Options) (stack : ChoiceStack) : Execution :=
  { options, ahead := stack.toList, random := .ofSeed options.seed }

def depth (execution : Execution) : Nat := execution.passed.length

/-- The whole path, as recorded and as extended. -/
def stack (execution : Execution) : ChoiceStack :=
  ⟨execution.ahead.reverse ++ execution.passed⟩

@[simp] theorem stack_start (options : Options) (stack : ChoiceStack) :
    (start options stack).stack = stack := by
  simp [start, Execution.stack, ChoiceStack.toList]

def tag (execution : Execution) (location : String) : Execution :=
  { execution with location := some location }

def ignoreRest (execution : Execution) : Execution :=
  match execution.passed with
  | [] => execution
  | newest :: older => { execution with passed := newest.retire :: older }

def isFull (execution : Execution) : Bool :=
  execution.options.depthLimit.any fun limit => limit ≤ execution.depth

/-- The generator of a new choice point, at its first alternative. -/
def generator (execution : Execution) (request : Request) : Generator :=
  Generator.advance
    { id := request.id, alternatives := request.alternatives, location := execution.location }

/--
Answer a request: by the recorded choice if there is one, else by the first
alternative of a new generator.  When the path is full the alternative is taken
and the generator forgotten.
-/
def choose (execution : Execution) (request : Request) : Value × Execution :=
  let fallback := request.alternatives.fallback
  let untagged := { execution with location := none }
  if execution.fault.isSome then (fallback, untagged)
  else
    match execution.ahead with
    | recorded :: ahead =>
        if recorded.kind = request.kind then
          (recorded.value?.getD fallback,
            { untagged with passed := recorded :: execution.passed, ahead })
        else
          let fault := Fault.divergence execution.depth recorded.kind request.kind
          (fallback, { untagged with fault := some fault })
    | [] =>
        let made := execution.generator request
        match made.value? with
        | none => (fallback, { untagged with fault := some (.emptyChoice request.id) })
        | some value =>
            if execution.isFull then (value, { untagged with truncated := true })
            else (value, { untagged with passed := made :: execution.passed })

/-- Answer a request for a random value: by a choice if these are enumerated, else by a draw. -/
def draw (execution : Execution) (source : Draw) : Value × Execution :=
  let drawn : Value × Execution :=
    let (value, random) := source.take execution.random
    (value, { execution with random, location := none })
  if execution.options.enumerateRandom then
    match source.request? with
    | some request => execution.choose request
    | none => drawn
  else drawn

def perform {α : Type} : Execution → Run α → α × Execution
  | execution, .done result => (result, execution)
  | execution, .tag location next => perform (execution.tag location) next
  | execution, .ignoreRest next => perform execution.ignoreRest next
  | execution, .depth next => perform execution (next execution.depth)
  | execution, .choose request next =>
      let (value, execution) := execution.choose request
      perform execution (next value)
  | execution, .draw source next =>
      let (value, execution) := execution.draw source
      perform execution (next value)

/-- Performing a run and then another is performing the two joined. -/
theorem perform_bind {α β : Type} (execution : Execution) (run : Run α) (next : α → Run β) :
    execution.perform (run.bind next) =
      (execution.perform run).2.perform (next (execution.perform run).1) := by
  induction run generalizing execution with
  | done result => rfl
  | tag location rest ih => exact ih (execution.tag location)
  | ignoreRest rest ih => exact ih execution.ignoreRest
  | depth rest ih => exact ih execution.depth execution
  | choose request rest ih => exact ih (execution.choose request).1 (execution.choose request).2
  | draw source rest ih => exact ih (execution.draw source).1 (execution.draw source).2

end Execution

end ChoiceExplorer.Search
