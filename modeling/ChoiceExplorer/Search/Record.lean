import ChoiceExplorer.Choice.Stack

/-!
# Violations and summaries

A violation is raised by the program.  The search records it together with the
path that led to it, and sums up what it explored.
-/

namespace ChoiceExplorer.Search

structure Violation where
  property : String
  message : String
  deriving DecidableEq

namespace Violation

def uncaught (message : String) : Violation := ⟨"NoUncaughtExceptionsProperty", message⟩

def text (violation : Violation) : String := violation.property ++ ": " ++ violation.message

end Violation

def errorId (number : Nat) : String := "#" ++ toString number

structure Record where
  id : String
  violation : Violation
  depth : Nat
  path : List String
  deriving DecidableEq

namespace Record

def ofPath (number : Nat) (violation : Violation) (stack : ChoiceStack) : Record :=
  ⟨errorId number, violation, stack.depth, stack.texts⟩

end Record

structure Summary where
  violations : List Record := []
  pathsExplored : Nat := 0
  truncatedPaths : Nat := 0
  maxDepth : Nat := 0
  deriving DecidableEq

namespace Summary

def foundAny (summary : Summary) : Bool := !summary.violations.isEmpty

end Summary

structure View where
  target : String
  stack : ChoiceStack
  last? : Option Record
  deriving DecidableEq

inductive Notice where
  | started (view : View)
  | violated (view : View)
  | finished (view : View)
  deriving DecidableEq

end ChoiceExplorer.Search
