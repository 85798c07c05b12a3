import ChoiceExplorer.Choice.Alternatives

/-!
# Choice generators

A generator walks the alternatives of one choice point.  Its position counts
the alternatives taken so far, so that zero stands for a generator not yet
started, and it never passes the end.  A retired generator takes no further
alternative.
-/

namespace ChoiceExplorer

structure Generator where
  id : String
  alternatives : Alternatives
  /-- How many alternatives have been taken; the last of them is the current one. -/
  taken : Nat := 0
  retired : Bool := false
  location : Option String := none
  taken_le : taken ≤ alternatives.size := by exact Nat.zero_le _
  deriving DecidableEq

namespace Generator

def kind (generator : Generator) : Kind := generator.alternatives.kind

/-- The alternative currently taken, none before the start. -/
def value? (generator : Generator) : Option Value :=
  match generator.taken with
  | 0 => none
  | before + 1 => generator.alternatives.get? before

def hasMore (generator : Generator) : Bool :=
  !generator.retired && generator.taken < generator.alternatives.size

def advance (generator : Generator) : Generator :=
  if h : generator.hasMore then
    { generator with
      taken := generator.taken + 1
      taken_le := by simp [hasMore] at h; exact h.2 }
  else generator

/-- Take that many further alternatives, as far as they are left. -/
def advanceBy (generator : Generator) (count : Nat) : Generator :=
  if generator.retired then generator
  else
    { generator with
      taken := min (generator.taken + count) generator.alternatives.size
      taken_le := Nat.min_le_right _ _ }

/-- Give up the alternatives not yet taken. -/
def retire (generator : Generator) : Generator := { generator with retired := true }

def locate (generator : Generator) (location : String) : Generator :=
  { generator with location := some location }

/-- The largest count that is reported; longer walks are reported with it. -/
def countLimit : Nat := UInt64.size - 1

def total (generator : Generator) : Nat := min generator.alternatives.size countLimit

def processed (generator : Generator) : Nat := min generator.taken countLimit

/-- Texts separated by commas, with a mark before the one current after `taken` many. -/
def marked (taken : Nat) (texts : List String) : String :=
  ",".intercalate (texts.mapIdx fun position text =>
    if position + 1 = taken then ">" ++ text else text)

def shortText (generator : Generator) : String :=
  let name := generator.kind.name
  let id := generator.id
  let values := marked generator.taken
  match generator.alternatives with
  | .booleans =>
      name ++ "[[id=\"" ++ id ++ "\",isCascaded:false,\x7b" ++ values ["false", "true"] ++ "\x7d]"
  | .threads listed =>
      name ++ " \x7bid:\"" ++ id ++ "\" ," ++ toString generator.taken ++ "/" ++
        toString listed.length ++ ",isCascaded:false\x7d"
  | .interval bounds =>
      name ++ "[id=\"" ++ id ++ "\",isCascaded:false," ++ toString bounds.min ++ ".." ++
        toString bounds.max ++ ",delta=" ++ (if 0 < bounds.step then "+" else "") ++
        toString bounds.step ++ ",cur=" ++ toString (bounds.term (generator.taken - 1)) ++ "]"
  | alternatives =>
      name ++ "[id=\"" ++ id ++ "\",isCascaded:false," ++
        values (alternatives.toList.map Value.text) ++ "]"

def text (generator : Generator) : String := choiceNamespace ++ generator.shortText

end Generator

end ChoiceExplorer
