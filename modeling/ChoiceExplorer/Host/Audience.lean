import ChoiceExplorer.Host.Sections

/-!
# The audience of a search

What a search tells is passed on in order: to every observer, and for a
violation then to the report and the observers that extend it.  The first
failure of the report is remembered and stops nothing.
-/

namespace ChoiceExplorer

open Output (Surroundings Failure)
open Search (Notice View)

/-- An observer, and whether it adds sections to the report. -/
structure Attached where
  observer : Observer
  extension : Bool
  deriving DecidableEq

structure Audience where
  attached : List Attached
  report : Report
  surroundings : Surroundings
  events : List Event := []
  /-- The first failure of the report. -/
  failure : Option Failure := none

namespace Audience

/-- Remember a failure of the report unless there was one before. -/
def noteFailure (audience : Audience) (result : Except Failure Unit) : Audience :=
  match result, audience.failure with
  | .error cause, none => { audience with failure := some cause }
  | _, _ => audience

def eventsOf (audience : Audience) (occasion : Occasion) (view : View) : List Event :=
  audience.attached.flatMap fun member => member.observer.events occasion view

def extensions (audience : Audience) : List Observer :=
  (audience.attached.filter Attached.extension).map Attached.observer

def tellViolated (view : View) : List Attached → Surroundings → List Attached × Surroundings
  | [], surroundings => ([], surroundings)
  | member :: rest, surroundings =>
      let (observer, surroundings) := member.observer.violated view surroundings
      let (rest, surroundings) := tellViolated view rest surroundings
      ({ member with observer } :: rest, surroundings)

/-- The report is opened before observers hear of the start. -/
def started (audience : Audience) (view : View) : Audience :=
  let step := audience.report.start view.target audience.surroundings
  { audience.noteFailure step.result with
    report := step.report
    surroundings := step.surroundings
    events := audience.events ++ audience.eventsOf .started view }

/-- Observers hear of a violation before it is reported. -/
def violated (audience : Audience) (view : View) : Audience :=
  let (attached, surroundings) := tellViolated view audience.attached audience.surroundings
  let told := { audience with attached }
  let (step, events) := told.report.violation told.extensions view surroundings
  { told.noteFailure step.result with
    report := step.report
    surroundings := step.surroundings
    events := audience.events ++ audience.eventsOf .violated view ++ events }

def finished (audience : Audience) (view : View) : Audience :=
  { audience with events := audience.events ++ audience.eventsOf .finished view }

def hear (audience : Audience) : Notice → Audience
  | .started view => audience.started view
  | .violated view => audience.violated view
  | .finished view => audience.finished view

end Audience

end ChoiceExplorer
