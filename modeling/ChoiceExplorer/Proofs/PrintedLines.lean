import ChoiceExplorer.Report.Text
import ChoiceExplorer.Trace.Tracer

/-!
# Printed lines

What a report and a trace print, line by line.  The lines are said here once more, without
the texts that reports and traces are made of, and the texts are shown to print them.
-/

namespace ChoiceExplorer

open Search (Record Summary)

/-- Lines one after the other, each ended by a line feed. -/
def printed (lines : List String) : String := String.join (lines.map (· ++ "\n"))

@[simp] theorem printed_nil : printed [] = "" := rfl

@[simp] theorem printed_cons (line : String) (rest : List String) :
    printed (line :: rest) = line ++ "\n" ++ printed rest := by
  simp [printed]

@[simp] theorem printed_append (first second : List String) :
    printed (first ++ second) = printed first ++ printed second := by
  simp [printed]

theorem printed_map {α : Type} (say : α → String) (items : List α) :
    printed (items.map say) = String.join (items.map fun item => say item ++ "\n") := by
  rw [printed, List.map_map]
  rfl

theorem printed_flatMap {α : Type} (say : α → List String) (items : List α) :
    printed (items.flatMap say) = String.join (items.map fun item => printed (say item)) := by
  induction items with
  | nil => rfl
  | cons item rest ih => simp [ih]

namespace Report

def topicLines (topic : String) : List String :=
  ["", "====================================================== " ++ topic]

def startLines (target : String) : List String :=
  topicLines "system under test" ++ [target] ++ topicLines "search started"

def violationLines (record : Record) : List String :=
  topicLines ("error " ++ record.id) ++ [record.violation.property, record.violation.message]

def resultLines : List Record → List String
  | [] => ["no errors detected"]
  | record :: rest => (record :: rest).map fun record =>
      "error " ++ record.id ++ ": " ++ record.violation.property ++ ": " ++
        record.violation.message

def finishLines (summary : Summary) : List String :=
  topicLines "results" ++ resultLines summary.violations ++ topicLines "statistics" ++
    ["paths explored:     " ++ toString summary.pathsExplored,
      "truncated paths:    " ++ toString summary.truncatedPaths,
      "max depth:          " ++ toString summary.maxDepth] ++
    topicLines "search finished"

theorem heading_eq (topic : String) : heading topic = printed (topicLines topic) := by
  have rule : "\n====================================================== " =
    "\n" ++ "====================================================== " := by decide
  -- Literals are kept apart, as they would be joined again before the lines are compared.
  unfold heading
  rw [rule, topicLines]
  simp [-String.reduceAppend, String.append_assoc]

theorem startText_eq (target : String) : startText target = printed (startLines target) := by
  simp [startText, startLines, heading_eq, String.append_assoc]

theorem violationText_eq (record : Record) :
    violationText record.id (some record) = printed (violationLines record) := by
  simp [violationText, violationLines, heading_eq, String.append_assoc]

theorem resultsText_eq (violations : List Record) :
    resultsText violations = printed (resultLines violations) := by
  cases violations with
  | nil => rfl
  | cons record rest =>
      rw [resultLines, printed_map]
      simp [resultsText, Search.Violation.text, String.append_assoc]

theorem finishText_eq (summary : Summary) :
    finishText summary = printed (finishLines summary) := by
  unfold finishText statisticsText
  simp [-String.reduceAppend, finishLines, heading_eq, resultsText_eq, String.append_assoc]

end Report

namespace Trace

def Line.printedLines (line : Line) : List String :=
  (String.ofList ((toString line.index).toList.leftpad 4 ' ') ++ ": " ++ line.body) ::
    (line.location.map (" \tat " ++ ·)).toList

def scopeLine : List Kind → String
  | [] => "// trace over all CG classes"
  | kind :: rest => "// trace over CG types: " ++
      String.join ((kind :: rest).map fun kind => "pathtrace::choice::" ++ kind.name ++ " ")

def traceLines (target : String) (allowed : List Kind) (lines : List Line) : List String :=
  ["// application: " ++ target, scopeLine allowed, "//------------------------- choice trace"] ++
    lines.flatMap Line.printedLines ++ ["//------------------------- end choice trace"]

theorem Line.text_eq (line : Line) : line.text ++ "\n" = printed line.printedLines := by
  have digits (index : Nat) : String.ofList (Nat.toDigits 10 index) = index.repr := rfl
  obtain ⟨index, body, location⟩ := line
  cases location with
  | none =>
      simp [digits, text, printedLines, indexText, ← String.length_toList, String.append_assoc]
  | some location =>
      have mark : "\n \tat " = "\n" ++ " \tat " := by decide
      simp [-String.reduceAppend, digits, text, printedLines, indexText, mark,
        ← String.length_toList, String.append_assoc]

theorem linesText_eq (lines : List Line) :
    linesText lines = printed (lines.flatMap Line.printedLines) := by
  rw [linesText, printed_flatMap]
  simp only [Line.text_eq]

theorem Tracer.scopeText_eq (allowed : List Kind) :
    scopeText allowed = scopeLine allowed ++ "\n" := by
  cases allowed with
  | nil => rfl
  | cons kind rest => rfl

theorem Tracer.traceText_eq (options : Options) (view : Search.View) :
    traceText ⟨options, none⟩ view =
      printed (traceLines view.target options.allowed (options.lines view.stack.toList)) := by
  have opened : "//------------------------- choice trace\n" =
    "//------------------------- choice trace" ++ "\n" := by decide
  have closed : "//------------------------- end choice trace\n" =
    "//------------------------- end choice trace" ++ "\n" := by decide
  unfold traceText
  rw [opened, closed, scopeText_eq, linesText, linesText_eq, traceLines]
  simp [-String.reduceAppend, String.append_assoc]

end Trace

end ChoiceExplorer
