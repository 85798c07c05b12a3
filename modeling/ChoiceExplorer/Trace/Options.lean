import ChoiceExplorer.Choice.Kind

/-!
# Options of a choice trace

They say where a trace goes, which choices it shows and what a line shows of a
choice.
-/

namespace ChoiceExplorer.Trace

inductive Format where
  /-- The text of the generator. -/
  | generator
  /-- The text of the value taken. -/
  | value
  deriving DecidableEq

namespace Format

def name : Format → String
  | generator => "CG"
  | value => "CHOICE"

structure Unknown where
  text : String
  deriving DecidableEq

def Unknown.message (unknown : Unknown) : String :=
  "unknown choice format '" ++ unknown.text ++ "', expected CG or CHOICE"

/-- The format with a name, written with small or capital ASCII letters. -/
def parse (text : String) : Except Unknown Format :=
  let upper := text.toList.map Char.toUpper
  if upper = generator.name.toList then .ok generator
  else if upper = value.name.toList then .ok value
  else .error ⟨text⟩

end Format

structure Options where
  /-- The trace file; without one the trace becomes a section of the report. -/
  path : Option String := none
  /-- Values whose text begins with one of these are not shown. -/
  excludes : List String := []
  /-- The kinds shown, specializations included; none means all. -/
  allowed : List Kind := []
  format : Format := .generator
  showLocation : Bool := true
  deriving DecidableEq

namespace Options

def inReport (options : Options) : Bool := options.path.isNone

end Options

end ChoiceExplorer.Trace
