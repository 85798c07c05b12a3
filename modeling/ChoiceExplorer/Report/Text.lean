import ChoiceExplorer.Search.Record

/-!
# The text of a report

A report is plain text in sections under headings: how a run started, a section
for each violation, and the results.  To the section of a violation others may
be added by observers of the search.
-/

namespace ChoiceExplorer.Report

open Search (Record Summary)

def heading (topic : String) : String :=
  "\n====================================================== " ++ topic ++ "\n"

def startText (target : String) : String :=
  heading "system under test" ++ target ++ "\n" ++ heading "search started"

/-- The section of a violation, without what observers add. -/
def violationText (errorId : String) (record? : Option Record) : String :=
  heading ("error " ++ errorId) ++
    match record? with
    | none => ""
    | some record => record.violation.property ++ "\n" ++ record.violation.message ++ "\n"

def resultsText (violations : List Record) : String :=
  if violations.isEmpty then "no errors detected\n"
  else
    String.join (violations.map fun record =>
      "error " ++ record.id ++ ": " ++ record.violation.text ++ "\n")

def statisticsText (summary : Summary) : String :=
  "paths explored:     " ++ toString summary.pathsExplored ++ "\n" ++
    "truncated paths:    " ++ toString summary.truncatedPaths ++ "\n" ++
    "max depth:          " ++ toString summary.maxDepth ++ "\n"

def finishText (summary : Summary) : String :=
  heading "results" ++ resultsText summary.violations ++
    heading "statistics" ++ statisticsText summary ++ heading "search finished"

end ChoiceExplorer.Report
