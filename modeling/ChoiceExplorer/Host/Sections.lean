import ChoiceExplorer.Host.Observer

/-!
# Sections of observers

The section of a violation is followed by the sections that observers add, in
turn.  A section that cannot be written is known to its observer alone; the
report goes on.
-/

namespace ChoiceExplorer.Report

open Output (Surroundings)
open Search (View)

structure Extended where
  report : Report
  surroundings : Surroundings
  events : List Event

def extend (report : Report) (observer : Observer) (view : View) (surroundings : Surroundings) :
    Extended :=
  match observer.section? report.lastErrorId view with
  | none => ⟨report, surroundings, []⟩
  | some text =>
      let step := report.write text surroundings
      ⟨step.report, step.surroundings.warn (observer.sectionWarnings step.result),
        observer.sectionEvents step.result view⟩

def extendAll (view : View) : List Observer → Report → Surroundings → Extended
  | [], report, surroundings => ⟨report, surroundings, []⟩
  | observer :: rest, report, surroundings =>
      let first := report.extend observer view surroundings
      let later := extendAll view rest first.report first.surroundings
      { later with events := first.events ++ later.events }

/--
Report a violation with the sections of observers.  They are asked only when
the section of the violation itself could be written.
-/
def violation (report : Report) (observers : List Observer) (view : View)
    (surroundings : Surroundings) : Step × List Event :=
  let begun := report.beginViolation view surroundings
  match begun.result with
  | .error _ => (begun, [])
  | .ok () =>
      let extended := extendAll view observers begun.report begun.surroundings
      (⟨extended.report.channel.flush, extended.report, extended.surroundings⟩, extended.events)

end ChoiceExplorer.Report
