import ChoiceExplorer.Trace.Line

/-!
# Lines one by one

The lines of a trace can be taken one by one, passing the generators that the trace does
not show, and each can be written as soon as it is taken.
-/

namespace ChoiceExplorer.Trace.Options

def line? (options : Options) (index : Nat) (generator : Generator) : Option Line :=
  (options.visible? generator).map fun value =>
    { index
      body := options.format.body generator value
      location := options.locationOf generator }

/-- The next line, and the generators behind the one that it tells. -/
def nextLine? (options : Options) (index : Nat) : List Generator → Option (Line × List Generator)
  | [] => none
  | generator :: rest =>
      match options.line? index generator with
      | some line => some (line, rest)
      | none => options.nextLine? index rest

theorem length_of_nextLine? {options : Options} {index : Nat} {generators rest : List Generator}
    {line : Line} (found : options.nextLine? index generators = some (line, rest)) :
    rest.length < generators.length := by
  induction generators with
  | nil => cases found
  | cons generator behind ih =>
      rw [nextLine?] at found
      split at found
      · cases found
        exact Nat.lt_succ_self _
      · exact Nat.lt_succ_of_lt (ih found)

/-- Take the lines from an index on and write each of them, ended by a line feed. -/
def writeFrom {ω ε : Type} (options : Options) (write : ω → String → Except ε Unit × ω)
    (index written : Nat) (generators : List Generator) (output : ω) : Except ε Nat × ω :=
  match _found : options.nextLine? index generators with
  | none => (.ok written, output)
  | some (line, rest) =>
      match write output (line.text ++ "\n") with
      | (.error failure, output) => (.error failure, output)
      | (.ok (), output) => options.writeFrom write (index + 1) (written + 1) rest output
termination_by generators.length
decreasing_by exact length_of_nextLine? _found

def writeLines {ω ε : Type} (options : Options) (write : ω → String → Except ε Unit × ω)
    (generators : List Generator) (output : ω) : Except ε Nat × ω :=
  options.writeFrom write 0 0 generators output

end ChoiceExplorer.Trace.Options
