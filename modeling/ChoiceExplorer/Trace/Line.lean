import ChoiceExplorer.Choice.Generator
import ChoiceExplorer.Trace.Options

/-!
# Lines of a choice trace

A trace shows the visible choices of a path, oldest first, one numbered line
each.  A choice is visible when its generator is not retired, stands at a
value, is of an allowed kind, and the value's text begins with none of the
excluded texts.  Lines are numbered without gaps.
-/

namespace ChoiceExplorer.Trace

def unqualified (text qualifier : String) : String :=
  String.ofList (Text.withoutLeading qualifier.toList text.toList)

/-- Whether a text begins with one of the excluded texts; an empty one excludes nothing. -/
def hides (excludes : List String) (text : String) : Bool :=
  excludes.any fun leading => !leading.isEmpty && leading.toList.isPrefixOf text.toList

/-- Whether a kind is one of the allowed kinds or specializes one. -/
def admits (allowed : List Kind) (kind : Kind) : Bool :=
  allowed.isEmpty || allowed.any kind.isA

/-- A numbered line, with the place of the choice in the program below it. -/
structure Line where
  index : Nat
  body : String
  location : Option String
  deriving DecidableEq

namespace Line

/-- A number, right-aligned in four places. -/
def indexText (index : Nat) : String :=
  let digits := toString index
  String.ofList (List.replicate (4 - digits.length) ' ') ++ digits

/-- The text of a line, without the line feed that ends it. -/
def text (line : Line) : String :=
  indexText line.index ++ ": " ++ line.body ++
    match line.location with
    | none => ""
    | some location => "\n \tat " ++ location

end Line

def Format.body (format : Format) (generator : Generator) (value : Value) : String :=
  match format with
  | .generator => unqualified generator.text choiceNamespace
  | .value => unqualified value.text machineNamespace

namespace Options

def visible? (options : Options) (generator : Generator) : Option Value :=
  if generator.retired || !admits options.allowed generator.kind then none
  else generator.value?.filter fun value => !hides options.excludes value.text

def locationOf (options : Options) (generator : Generator) : Option String :=
  if options.showLocation then generator.location.filter fun location => !location.isEmpty
  else none

def visible (options : Options) (generators : List Generator) : List (Generator × Value) :=
  generators.filterMap fun generator =>
    (options.visible? generator).map fun value => (generator, value)

def lines (options : Options) (generators : List Generator) : List Line :=
  (options.visible generators).mapIdx fun index choice =>
    { index
      body := options.format.body choice.1 choice.2
      location := options.locationOf choice.1 }

end Options

def linesText (lines : List Line) : String :=
  String.join (lines.map fun line => line.text ++ "\n")

end ChoiceExplorer.Trace
