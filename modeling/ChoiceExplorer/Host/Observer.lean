import ChoiceExplorer.Report.Basic
import ChoiceExplorer.Trace.Tracer

/-!
# Observers

An observer is told what happens in a search and may add a section to the
report of a violation.  Tracers write traces, recorders note down every call
they get, and silent observers do nothing.
-/

namespace ChoiceExplorer

open Output (Surroundings Failure)
open Search (View)
open Trace (Tracer)

inductive Occasion where
  | started
  | violated
  | finished
  /-- Its section has been written into the report. -/
  | published
  /-- Its section could not be written. -/
  | publishFailed
  deriving DecidableEq

/-- A call that a recorder noted down. -/
structure Event where
  recorder : String
  occasion : Occasion
  view : View
  deriving DecidableEq

inductive Observer where
  | tracer (tracer : Tracer)
  | recorder (name : String)
  | silent
  deriving DecidableEq

namespace Observer

def events (observer : Observer) (occasion : Occasion) (view : View) : List Event :=
  match observer with
  | recorder name => [⟨name, occasion, view⟩]
  | _ => []

def hear (observer : Observer) : Search.Notice → List Event
  | .started view => observer.events .started view
  | .violated view => observer.events .violated view
  | .finished view => observer.events .finished view

/-- What an observer writes outside the report when a property is violated. -/
def violated (observer : Observer) (view : View) (surroundings : Surroundings) :
    Observer × Surroundings :=
  match observer with
  | tracer owned =>
      let (owned, surroundings) := owned.trace view surroundings
      (tracer owned, surroundings)
  | other => (other, surroundings)

def section? (observer : Observer) (errorId : String) (view : View) : Option String :=
  match observer with
  | tracer owned =>
      if owned.inReport then
        some (Report.heading ("choice trace " ++ errorId) ++ owned.linesText view.stack)
      else none
  | recorder name =>
      some (Report.heading ("note " ++ name ++ " " ++ errorId) ++ "depth " ++
        toString view.stack.depth ++ "\n")
  | silent => none

/-- What an observer notes down when its section has been written or has failed. -/
def sectionEvents (observer : Observer) (result : Except Failure Unit) (view : View) :
    List Event :=
  match result with
  | .ok () => observer.events .published view
  | .error _ => observer.events .publishFailed view

def sectionWarnings (observer : Observer) (result : Except Failure Unit) : List Warning :=
  match observer, result with
  | tracer _, .error cause => [.traceNotPublished cause]
  | _, _ => []

end Observer

end ChoiceExplorer
