import ChoiceExplorer.Text.Blank

/-!
# Kinds of choice generators

Kinds form a tree.  The inner kinds group the concrete generators that produce
values of one sort, and below them stand the generators themselves.
-/

namespace ChoiceExplorer

def choiceNamespace : String := "pathtrace::choice::"

def machineNamespace : String := "pathtrace::vm::"

inductive Kind where
  | any
  | boolean
  | int
  | intInterval
  | intSet
  | double
  | doubleList
  | float
  | floatList
  | long
  | longList
  | thread
  | threadSet
  deriving DecidableEq

namespace Kind

/-- Every kind, the more general ones before their specializations. -/
def all : List Kind :=
  [any, boolean, int, intInterval, intSet, double, doubleList, float, floatList, long, longList,
    thread, threadSet]

/-- The kind that a kind specializes; only the root has none. -/
def parent? : Kind → Option Kind
  | any => none
  | intInterval | intSet => some int
  | doubleList => some double
  | floatList => some float
  | longList => some long
  | threadSet => some thread
  | boolean | int | double | float | long | thread => some any

/-- How many specializations lie between the root and a kind. -/
def level : Kind → Nat
  | any => 0
  | boolean | int | double | float | long | thread => 1
  | _ => 2

theorem level_of_parent? {kind above : Kind} (h : kind.parent? = some above) :
    kind.level = above.level + 1 := by
  cases kind <;> simp_all [parent?] <;> subst h <;> rfl

/-- The kinds met on the way up from a kind in at most so many steps. -/
def climb : Nat → Kind → List Kind
  | 0, kind => [kind]
  | steps + 1, kind =>
      match kind.parent? with
      | none => [kind]
      | some above => kind :: climb steps above

def lineage (kind : Kind) : List Kind := kind.climb kind.level

theorem lineage_of_parent? {kind above : Kind} (h : kind.parent? = some above) :
    kind.lineage = kind :: above.lineage := by
  simp only [lineage, level_of_parent? h, climb, h]

/-- Whether a kind equals another or specializes it at any distance. -/
def isA (kind ancestor : Kind) : Bool :=
  ancestor ∈ kind.lineage

def name : Kind → String
  | any => "ChoiceGenerator"
  | boolean => "BooleanChoiceGenerator"
  | int => "IntChoiceGenerator"
  | intInterval => "IntIntervalGenerator"
  | intSet => "IntChoiceFromSet"
  | double => "DoubleChoiceGenerator"
  | doubleList => "DoubleChoiceFromList"
  | float => "FloatChoiceGenerator"
  | floatList => "FloatChoiceFromList"
  | long => "LongChoiceGenerator"
  | longList => "LongChoiceFromList"
  | thread => "ThreadChoiceGenerator"
  | threadSet => "ThreadChoiceFromSet"

def qualifiedName (kind : Kind) : String := choiceNamespace ++ kind.name

def ofShortName? (name : String) : Option Kind :=
  all.find? fun kind => kind.name == name

/-- The kind with a short or qualified name, blanks around it aside. -/
def ofName? (name : String) : Option Kind :=
  ofShortName?
    (String.ofList (Text.withoutLeading choiceNamespace.toList (Text.trim name.toList)))

end Kind

end ChoiceExplorer
