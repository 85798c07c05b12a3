import ChoiceExplorer.Output.Channel
import ChoiceExplorer.Text.Quoted

/-!
# Trace outlets

A tracer that does not write into the report owns an outlet.  A trace file that
cannot be created is replaced by standard output.
-/

namespace ChoiceExplorer.Trace

open Output (Channel Surroundings Buffer)

inductive Target where
  | file (path : String)
  | stdout
  | writer
  deriving DecidableEq

structure Outlet where
  target : Target
  channel : Channel
  deriving DecidableEq

namespace Outlet

def standard : Outlet := ⟨.stdout, .standard⟩

def ofBuffer (buffer : Buffer) : Outlet := ⟨.writer, .buffer buffer⟩

/-- Create the trace file at a path, or report the failure and use standard output. -/
def create (path : String) (surroundings : Surroundings) : Outlet × Surroundings :=
  match surroundings.directory.create path with
  | .ok (name, directory) => (⟨.file path, .file name 0⟩, { surroundings with directory })
  | .error cause =>
      let report := "cannot write choice trace to file: " ++ path ++ "\n"
      let reported := { surroundings with stderr := surroundings.stderr ++ report }
      (standard, reported.warn [.traceToStdout path cause])

def describe (outlet : Outlet) : String :=
  let target :=
    match outlet.target with
    | .file path => "File(" ++ Text.quoted path ++ ")"
    | .stdout => "Stdout"
    | .writer => "Writer"
  "OwnedSink \x7b target: " ++ target ++ ", .. \x7d"

end Outlet

end ChoiceExplorer.Trace
