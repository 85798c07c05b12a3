import ChoiceExplorer.Output.Buffer
import ChoiceExplorer.Warning

/-!
# Output channels

A channel leads to a file, to standard output, or to a buffer that it owns.
Files and the standard streams are part of the surroundings, which all
channels share.
-/

namespace ChoiceExplorer.Output

/-- What the channels of a program share, and the warnings given so far. -/
structure Surroundings where
  directory : Directory := .empty
  stdout : Buffer := {}
  stderr : String := ""
  warnings : List Warning := []

namespace Surroundings

def warn (surroundings : Surroundings) (warnings : List Warning) : Surroundings :=
  { surroundings with warnings := surroundings.warnings ++ warnings }

@[simp] theorem warn_nil (surroundings : Surroundings) : surroundings.warn [] = surroundings := by
  rw [warn, List.append_nil]

end Surroundings

/-- Where output goes.  A file is written on from an offset of its own. -/
inductive Channel where
  | file (name : String) (offset : Nat)
  | standard
  | buffer (buffer : Buffer)
  deriving DecidableEq

structure Written where
  result : Except Failure Unit
  channel : Channel
  surroundings : Surroundings

namespace Channel

def write (channel : Channel) (text : String) (surroundings : Surroundings) : Written :=
  match channel with
  | file name offset =>
      let bytes := text.toUTF8
      ⟨.ok (), file name (offset + bytes.size),
        { surroundings with directory := surroundings.directory.writeAt name offset bytes }⟩
  | standard =>
      let (result, stdout) := surroundings.stdout.write text
      ⟨result, .standard, { surroundings with stdout }⟩
  | buffer owned =>
      let (result, owned) := owned.write text
      ⟨result, .buffer owned, surroundings⟩

/-- Flush what was written; files and standard output never fail. -/
def flush : Channel → Except Failure Unit
  | buffer owned => owned.flush
  | _ => .ok ()

/-- Write a text and flush it, unless writing fails. -/
def writeOut (channel : Channel) (text : String) (surroundings : Surroundings) : Written :=
  let written := channel.write text surroundings
  match written.result with
  | .error _ => written
  | .ok () => { written with result := written.channel.flush }

end Channel

end ChoiceExplorer.Output
