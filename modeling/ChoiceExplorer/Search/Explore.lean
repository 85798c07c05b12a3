import ChoiceExplorer.Search.Execution

/-!
# Exploring all paths

The search runs a program again and again.  After each run it turns to the next
path, until every alternative has been taken, a violation stops it, or a run
cannot count.  What observers are told on the way is collected in order;
nothing they do could change the search.
-/

namespace ChoiceExplorer

/--
A program with a state of its own that outlives its runs: from the state, what
it does in one run, the violation it ends with if any, and the next state.
-/
abbrev Program (σ : Type) := σ → Run (Option Search.Violation × σ)

/-- A search: its options, the current path and what has been found. -/
structure Search where
  options : Search.Options
  stack : ChoiceStack := .empty
  violations : List Search.Record := []
  pathsExplored : Nat := 0
  truncatedPaths : Nat := 0
  maxDepth : Nat := 0

namespace Search

def view (search : Search) : View :=
  ⟨search.options.target, search.stack, search.violations.getLast?⟩

def summary (search : Search) : Summary :=
  ⟨search.violations, search.pathsExplored, search.truncatedPaths, search.maxDepth⟩

def reset (search : Search) : Search := { options := search.options }

def count (search : Search) (truncated : Bool) : Search :=
  { search with
    pathsExplored := search.pathsExplored + 1
    truncatedPaths := if truncated then search.truncatedPaths + 1 else search.truncatedPaths
    maxDepth := max search.maxDepth search.stack.depth }

def record (search : Search) (violation : Violation) : Search :=
  let record := Record.ofPath (search.violations.length + 1) violation search.stack
  { search with violations := search.violations ++ [record] }

inductive Ending where
  | finished (summary : Summary)
  | faulted (fault : Fault)
  /-- The budget of runs was used up. -/
  | unfinished
  deriving DecidableEq

/-- A search in progress, with the program's state and what observers were told. -/
structure Progress (σ : Type) where
  search : Search
  state : σ
  notices : List Notice := []

namespace Progress

variable {σ : Type}

def tell (progress : Progress σ) (notice : View → Notice) : Progress σ :=
  { progress with notices := progress.notices ++ [notice progress.search.view] }

def finish (progress : Progress σ) : Option Ending × Progress σ :=
  (some (.finished progress.search.summary), progress.tell .finished)

def turn (progress : Progress σ) : Option Ending × Progress σ :=
  match progress.search.stack.next? with
  | some stack => (none, { progress with search := { progress.search with stack } })
  | none => finish { progress with search := { progress.search with stack := .empty } }

def attempt (program : Program σ) (progress : Progress σ) :
    (Option Violation × σ) × Execution :=
  let search := progress.search
  (Execution.start search.options search.stack).perform (program progress.state)

/-- Count a run that ended without a fault, record its violation, and go on. -/
def conclude (progress : Progress σ) (truncated : Bool) (violation : Option Violation) :
    Option Ending × Progress σ :=
  let counted := progress.search.count truncated
  match violation with
  | none => turn { progress with search := counted }
  | some violation =>
      let told := tell { progress with search := counted.record violation } .violated
      if progress.search.options.multipleErrors then told.turn else told.finish

/-- Run the program once and see whether the search goes on. -/
def step (program : Program σ) (progress : Progress σ) : Option Ending × Progress σ :=
  let ((violation, state), execution) := progress.attempt program
  let reached :=
    { progress with search := { progress.search with stack := execution.stack }, state }
  match execution.fault with
  | some fault => (some (.faulted fault), reached)
  | none => reached.conclude execution.truncated violation

/-- Run the program until the search ends, at most as often as the budget allows. -/
def explore (program : Program σ) : (budget : Nat) → Progress σ → Ending × Progress σ
  | 0, progress => (.unfinished, progress)
  | budget + 1, progress =>
      match progress.step program with
      | (some ending, progress) => (ending, progress)
      | (none, progress) => explore program budget progress

end Progress

def run {σ : Type} (search : Search) (program : Program σ) (state : σ) (budget : Nat) :
    Ending × Progress σ :=
  let begun : Progress σ := { search := search.reset, state }
  (begun.tell .started).explore program budget

/-- More runs than a 64-bit count can hold are never made. -/
def fullBudget : Nat := UInt64.size

end Search

end ChoiceExplorer
