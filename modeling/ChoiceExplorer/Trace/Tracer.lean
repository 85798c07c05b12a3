import ChoiceExplorer.Search.Record
import ChoiceExplorer.Trace.Line
import ChoiceExplorer.Trace.Settings
import ChoiceExplorer.Trace.Outlet

/-!
# Choice tracers

A tracer writes the choices that led to a violation: a trace of its own into
the outlet it owns, or lines into a section of the report when it owns none.
-/

namespace ChoiceExplorer.Trace

open Output (Surroundings)

/-- A tracer; without an outlet it contributes to the report. -/
structure Tracer where
  options : Options
  outlet : Option Outlet
  deriving DecidableEq

namespace Tracer

def ofOptions (options : Options) (surroundings : Surroundings) : Tracer × Surroundings :=
  match options.path with
  | none => (⟨options, none⟩, surroundings)
  | some path =>
      let (outlet, surroundings) := Outlet.create path surroundings
      (⟨options, some outlet⟩, surroundings)

def ofConfig (config : Config) (surroundings : Surroundings) : Tracer × Surroundings :=
  let options := Options.ofConfig config
  ofOptions options.value (surroundings.warn options.warnings)

def inReport (tracer : Tracer) : Bool := tracer.outlet.isNone

def excluding (tracer : Tracer) (excludes : List String) : Tracer :=
  { tracer with options := { tracer.options with excludes } }

def linesText (tracer : Tracer) (stack : ChoiceStack) : String :=
  Trace.linesText (tracer.options.lines stack.toList)

def scopeText (allowed : List Kind) : String :=
  if allowed.isEmpty then "// trace over all CG classes\n"
  else
    "// trace over CG types: " ++
      String.join (allowed.map fun kind => kind.qualifiedName ++ " ") ++ "\n"

/-- A trace of its own: what is traced, and the lines between two marks. -/
def traceText (tracer : Tracer) (view : Search.View) : String :=
  "// application: " ++ view.target ++ "\n" ++ scopeText tracer.options.allowed ++
    "//------------------------- choice trace\n" ++ tracer.linesText view.stack ++
    "//------------------------- end choice trace\n"

def trace (tracer : Tracer) (view : Search.View) (surroundings : Surroundings) :
    Tracer × Surroundings :=
  match tracer.outlet with
  | none => (tracer, surroundings)
  | some outlet =>
      let written := outlet.channel.writeOut (tracer.traceText view) surroundings
      let traced := { tracer with outlet := some { outlet with channel := written.channel } }
      match written.result with
      | .ok () => (traced, written.surroundings)
      | .error cause => (traced, written.surroundings.warn [.traceNotWritten cause])

end Tracer

end ChoiceExplorer.Trace
