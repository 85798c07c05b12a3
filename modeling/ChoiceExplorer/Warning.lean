import ChoiceExplorer.Output.Buffer
import ChoiceExplorer.Output.Directory

/-!
# Warnings

What goes wrong without stopping anything is reported as a warning.
-/

namespace ChoiceExplorer

/-- Something that went wrong and was passed over. -/
inductive Warning where
  | malformedBoolean (key value : String) (default : Bool)
  | malformedValue (key value : String)
  | unknownKind (name : String)
  | traceToStdout (path : String) (cause : Output.FileError)
  | traceNotWritten (cause : Output.Failure)
  | traceNotPublished (cause : Output.Failure)
  deriving DecidableEq

namespace Warning

def message : Warning → String
  | malformedBoolean .. => "malformed boolean, using default"
  | malformedValue .. => "malformed value, using default"
  | unknownKind _ => "ignoring unknown choice generator kind"
  | traceToStdout .. => "choice trace falls back to stdout"
  | traceNotWritten _ => "failed to write choice trace"
  | traceNotPublished _ => "failed to publish choice trace"

def fields : Warning → List (String × String)
  | malformedBoolean key value default =>
      [("key", key), ("value", value), ("default", toString default)]
  | malformedValue key value => [("key", key), ("value", value)]
  | unknownKind name => [("name", name)]
  | traceToStdout path cause => [("path", path), ("error", cause.message)]
  | traceNotWritten cause => [("error", cause.message)]
  | traceNotPublished cause => [("error", cause.message)]

end Warning

end ChoiceExplorer
