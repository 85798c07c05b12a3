import ChoiceExplorer.Output.Channel
import ChoiceExplorer.Report.Text

/-!
# Writing a report

A report is written to a channel as a run goes on.  It numbers the violations
of the run by itself.  Each operation writes one text and gives the first
failure; what the channel accepted before it stays written.
-/

namespace ChoiceExplorer

open Output (Channel Surroundings Failure Written)
open Search (Summary View)

structure Report where
  channel : Channel
  /-- How many violations of this run have been reported. -/
  errorCount : Nat := 0
  /-- The id of the violation reported last, empty before the first. -/
  lastErrorId : String := ""
  deriving DecidableEq

namespace Report

structure Step where
  result : Except Failure Unit
  report : Report
  surroundings : Surroundings

def after (report : Report) (written : Written) : Step :=
  ⟨written.result, { report with channel := written.channel }, written.surroundings⟩

def write (report : Report) (text : String) (surroundings : Surroundings) : Step :=
  report.after (report.channel.write text surroundings)

/-- Report the start of a run, which has no violations yet. -/
def start (report : Report) (target : String) (surroundings : Surroundings) : Step :=
  let fresh := { report with errorCount := 0, lastErrorId := "" }
  fresh.write (startText target) surroundings

/-- Begin the section of the next violation. -/
def beginViolation (report : Report) (view : View) (surroundings : Surroundings) : Step :=
  let number := report.errorCount + 1
  let counted := { report with errorCount := number, lastErrorId := Search.errorId number }
  counted.write (violationText counted.lastErrorId view.last?) surroundings

def finish (report : Report) (summary : Summary) (surroundings : Surroundings) : Step :=
  report.after (report.channel.writeOut (finishText summary) surroundings)

end Report

end ChoiceExplorer
