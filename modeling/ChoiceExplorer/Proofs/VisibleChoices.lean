import Mathlib.Data.List.Forall2
import ChoiceExplorer.Proofs.CutBuffers
import ChoiceExplorer.Proofs.OneTrace
import ChoiceExplorer.Trace.LineWriter

/-!
# The visible choices

The lines of a trace tell the choices that its filters let through, each with its place in the
order of the stack.  What a line shows does not decide which choices are told, and a filter
is a set: order and repetition of what it lists make no difference.
-/

namespace ChoiceExplorer

open Output (Buffer)

inductive Kind.Specializes : Kind → Kind → Prop where
  | refl (kind : Kind) : Specializes kind kind
  | step {kind above ancestor : Kind} (parent : kind.parent? = some above)
      (specializes : Specializes above ancestor) : Specializes kind ancestor

theorem Kind.specializes_of_mem_climb {steps : Nat} {kind ancestor : Kind}
    (member : ancestor ∈ kind.climb steps) : kind.Specializes ancestor := by
  induction steps generalizing kind with
  | zero =>
      obtain rfl := List.mem_singleton.mp member
      exact .refl _
  | succ steps ih =>
      rw [climb] at member
      split at member
      · obtain rfl := List.mem_singleton.mp member
        exact .refl _
      · rename_i above parent
        rcases List.mem_cons.mp member with rfl | higher
        · exact .refl _
        · exact .step parent (ih higher)

theorem Kind.isA_iff {kind ancestor : Kind} :
    kind.isA ancestor = true ↔ kind.Specializes ancestor := by
  rw [isA, decide_eq_true_iff]
  constructor
  · exact specializes_of_mem_climb
  · intro specializes
    induction specializes with
    | refl kind => cases kind <;> decide
    | step parent _ ih =>
        rw [lineage_of_parent? parent]
        exact List.mem_cons_of_mem _ ih

namespace Trace

theorem admits_iff {allowed : List Kind} {kind : Kind} :
    admits allowed kind = true ↔
      allowed = [] ∨ ∃ ancestor ∈ allowed, kind.Specializes ancestor := by
  simp only [admits, Bool.or_eq_true, List.isEmpty_iff, List.any_eq_true, Kind.isA_iff]

theorem hides_iff {excludes : List String} {text : String} :
    hides excludes text = true ↔
      ∃ leading ∈ excludes, leading ≠ "" ∧ leading.toList <+: text.toList := by
  simp only [hides, List.any_eq_true, Bool.and_eq_true, Bool.not_eq_true', List.isPrefixOf_iff_prefix,
    String.isEmpty_eq_false_iff]

namespace Options

/-- A choice that the filters let through. -/
structure Shows (options : Options) (generator : Generator) (value : Value) : Prop where
  unretired : generator.retired = false
  current : generator.value? = some value
  allowed : options.allowed = [] ∨
    ∃ ancestor ∈ options.allowed, generator.kind.Specializes ancestor
  unexcluded : ∀ leading ∈ options.excludes, leading ≠ "" → ¬leading.toList <+: value.text.toList

theorem visible?_eq_some_iff {options : Options} {generator : Generator} {value : Value} :
    options.visible? generator = some value ↔ options.Shows generator value := by
  have kept : (!hides options.excludes value.text) = true ↔
      ∀ leading ∈ options.excludes, leading ≠ "" → ¬leading.toList <+: value.text.toList := by
    rw [Bool.not_eq_true', ← Bool.not_eq_true, hides_iff]
    constructor
    · intro none_leads leading listed text leads
      exact none_leads ⟨leading, listed, text, leads⟩
    · rintro all ⟨leading, listed, text, leads⟩
      exact all leading listed text leads
  rw [visible?]
  split
  · rename_i passed
    constructor
    · intro shown
      cases shown
    · intro shown
      rcases Bool.or_eq_true_iff.mp passed with retired | unlisted
      · rw [shown.unretired] at retired
        cases retired
      · rw [admits_iff.mpr shown.allowed] at unlisted
        cases unlisted
  · rename_i open_
    rw [Bool.not_eq_true, Bool.or_eq_false_iff, Bool.not_eq_false'] at open_
    rw [Option.filter_eq_some_iff, kept]
    constructor
    · rintro ⟨current, unexcluded⟩
      exact ⟨open_.1, current, admits_iff.mp open_.2, unexcluded⟩
    · intro shown
      exact ⟨shown.current, shown.unexcluded⟩

def places (options : Options) (generators : List Generator) : List Nat :=
  (List.range generators.length).filter fun place =>
    (generators[place]?.bind options.visible?).isSome

theorem mem_places {options : Options} {generators : List Generator} {place : Nat} :
    place ∈ options.places generators ↔
      ∃ generator value, generators[place]? = some generator ∧ options.Shows generator value := by
  rw [places, List.mem_filter, List.mem_range, Option.isSome_iff_exists]
  constructor
  · rintro ⟨-, value, found⟩
    obtain ⟨generator, stands, shown⟩ := Option.bind_eq_some_iff.mp found
    exact ⟨generator, value, stands, visible?_eq_some_iff.mp shown⟩
  · rintro ⟨generator, value, stands, shown⟩
    obtain ⟨lt, -⟩ := List.getElem?_eq_some_iff.mp stands
    exact ⟨lt, value, Option.bind_eq_some_iff.mpr ⟨generator, stands, visible?_eq_some_iff.mpr shown⟩⟩

theorem pairwise_places (options : Options) (generators : List Generator) :
    (options.places generators).Pairwise (· < ·) :=
  List.pairwise_lt_range.filter _

theorem places_cons (options : Options) (generator : Generator) (rest : List Generator) :
    options.places (generator :: rest) =
      (if (options.visible? generator).isSome then [0] else []) ++
        (options.places rest).map (· + 1) := by
  rw [places, List.length_cons, List.range_succ_eq_map, List.filter_cons, List.filter_map]
  split
  · rename_i shown
    rw [List.getElem?_cons_zero, Option.bind_some] at shown
    rw [if_pos shown]
    rfl
  · rename_i hidden
    rw [List.getElem?_cons_zero, Option.bind_some] at hidden
    rw [if_neg hidden]
    rfl

/-- A filter that lets less through tells fewer choices, in the same order. -/
theorem places_sublist {options other : Options}
    (shows : ∀ generator value, other.Shows generator value → options.Shows generator value)
    (generators : List Generator) :
    (other.places generators).Sublist (options.places generators) := by
  apply List.monotone_filter_right
  intro place shown
  obtain ⟨value, found⟩ := Option.isSome_iff_exists.mp shown
  obtain ⟨generator, stands, visible⟩ := Option.bind_eq_some_iff.mp found
  have still := visible?_eq_some_iff.mpr (shows generator value (visible?_eq_some_iff.mp visible))
  rw [stands, Option.bind_some, still]
  rfl

/-- Options that list the same excluded texts and the same kinds, in whatever order. -/
structure SameFilters (options other : Options) : Prop where
  excludes : ∀ leading, leading ∈ options.excludes ↔ leading ∈ other.excludes
  allowed : ∀ kind, kind ∈ options.allowed ↔ kind ∈ other.allowed

theorem SameFilters.symm {options other : Options} (same : SameFilters options other) :
    SameFilters other options :=
  ⟨fun leading => (same.excludes leading).symm, fun kind => (same.allowed kind).symm⟩

theorem Shows.of_sameFilters {options other : Options} {generator : Generator} {value : Value}
    (shown : options.Shows generator value) (same : SameFilters options other) :
    other.Shows generator value := by
  refine { shown with allowed := ?_, unexcluded := ?_ }
  · rcases shown.allowed with all | ⟨ancestor, listed, specializes⟩
    · left
      apply List.eq_nil_iff_forall_not_mem.mpr
      intro kind listed
      rw [← same.allowed, all] at listed
      exact List.not_mem_nil listed
    · exact .inr ⟨ancestor, (same.allowed ancestor).mp listed, specializes⟩
  · intro leading listed
    exact shown.unexcluded leading ((same.excludes leading).mpr listed)

/-- Filters are sets, and what a line shows does not decide what is told. -/
theorem places_eq_of_sameFilters {options other : Options} (same : SameFilters options other)
    (generators : List Generator) : other.places generators = options.places generators := by
  have more := places_sublist (fun _ _ shown => Shows.of_sameFilters shown same) generators
  have fewer := places_sublist (fun _ _ shown => Shows.of_sameFilters shown same.symm) generators
  exact fewer.antisymm more

def Tells (options : Options) (generators : List Generator) (place : Nat) (line : Line) : Prop :=
  ∃ generator value, generators[place]? = some generator ∧ options.Shows generator value ∧
    line.body = options.format.body generator value ∧
    ∀ location, line.location = some location ↔
      options.showLocation = true ∧ generator.location = some location ∧ location ≠ ""

theorem locationOf_eq_some_iff {options : Options} {generator : Generator} {location : String} :
    options.locationOf generator = some location ↔
      options.showLocation = true ∧ generator.location = some location ∧ location ≠ "" := by
  rw [locationOf]
  split
  · rename_i shows
    simp [shows, Option.filter_eq_some_iff]
  · rename_i hides
    simp [hides]

theorem tells_of_line? {options : Options} {index : Nat} {generator : Generator} {line : Line}
    (told : options.line? index generator = some line) (rest : List Generator) :
    options.Tells (generator :: rest) 0 line := by
  obtain ⟨value, shown, rfl⟩ := Option.map_eq_some_iff.mp told
  refine ⟨generator, value, rfl, visible?_eq_some_iff.mp shown, rfl, ?_⟩
  intro location
  exact locationOf_eq_some_iff

def linesFrom (options : Options) (index : Nat) : List Generator → List Line
  | [] => []
  | generator :: rest =>
      match options.line? index generator with
      | some line => line :: options.linesFrom (index + 1) rest
      | none => options.linesFrom index rest

theorem linesFrom_eq (options : Options) (index : Nat) (generators : List Generator) :
    options.linesFrom index generators =
      match options.nextLine? index generators with
      | some (line, rest) => line :: options.linesFrom (index + 1) rest
      | none => [] := by
  induction generators with
  | nil => rfl
  | cons generator rest ih =>
      rw [linesFrom, nextLine?]
      cases options.line? index generator with
      | some line => rfl
      | none => exact ih

theorem mapIdx_visible (options : Options) (index : Nat) (generators : List Generator) :
    ((options.visible generators).mapIdx fun position choice =>
      ({ index := index + position
         body := options.format.body choice.1 choice.2
         location := options.locationOf choice.1 } : Line)) =
      options.linesFrom index generators := by
  induction generators generalizing index with
  | nil => rfl
  | cons generator rest ih =>
      rw [visible, List.filterMap_cons, linesFrom, line?]
      cases options.visible? generator with
      | none => exact ih index
      | some value =>
          simp only [Option.map_some, List.mapIdx_cons, Nat.add_zero, ← ih (index + 1), visible,
            Nat.add_assoc, Nat.add_comm 1]

/-- The lines of a trace are those from zero on. -/
theorem lines_eq_linesFrom (options : Options) (generators : List Generator) :
    options.lines generators = options.linesFrom 0 generators := by
  rw [← mapIdx_visible, lines]
  simp only [Nat.zero_add]

theorem forall₂_tells (options : Options) (index : Nat) (generators : List Generator) :
    List.Forall₂ (options.Tells generators) (options.places generators)
      (options.linesFrom index generators) := by
  induction generators generalizing index with
  | nil => exact .nil
  | cons generator rest ih =>
      rw [places_cons, linesFrom]
      have behind (index : Nat) : List.Forall₂ (options.Tells (generator :: rest))
          ((options.places rest).map (· + 1)) (options.linesFrom index rest) := by
        apply List.forall₂_map_left_iff.mpr
        exact (ih index).imp fun _ _ tells => tells
      cases told : options.line? index generator with
      | none =>
          have hidden : options.visible? generator = none := Option.map_eq_none_iff.mp told
          rw [hidden]
          exact behind index
      | some line =>
          have shown : (options.visible? generator).isSome = true := by
            rw [← Option.isSome_map, ← line?, told]
            rfl
          rw [if_pos shown]
          exact .cons (tells_of_line? told rest) (behind (index + 1))

/-- The lines that come when they are taken one after the other, until there is none. -/
inductive Yields (options : Options) : Nat → List Generator → List Line → Prop where
  | done {index : Nat} {generators : List Generator}
      (finished : options.nextLine? index generators = none) : Yields options index generators []
  | line {index : Nat} {generators rest : List Generator} {line : Line} {lines : List Line}
      (next : options.nextLine? index generators = some (line, rest))
      (yields : Yields options (index + 1) rest lines) :
      Yields options index generators (line :: lines)

/-- A generator that the trace does not show is passed. -/
theorem Yields.pass {options : Options} {index : Nat} {generator : Generator}
    {rest : List Generator} {lines : List Line} (hidden : options.line? index generator = none)
    (yields : options.Yields index rest lines) :
    options.Yields index (generator :: rest) lines := by
  have passed : options.nextLine? index (generator :: rest) = options.nextLine? index rest := by
    rw [nextLine?, hidden]
  cases yields with
  | done finished => exact .done (passed.trans finished)
  | line next yields => exact .line (passed.trans next) yields

theorem yields_linesFrom (options : Options) (index : Nat) (generators : List Generator) :
    options.Yields index generators (options.linesFrom index generators) := by
  induction generators generalizing index with
  | nil => exact .done rfl
  | cons generator rest ih =>
      rw [linesFrom]
      cases told : options.line? index generator with
      | none => exact (ih index).pass told
      | some line =>
          apply Yields.line
          · rw [nextLine?, told]
          · exact ih (index + 1)

/-- Taking the lines one after the other gives each of them once. -/
theorem yields_iff {options : Options} {index : Nat} {generators : List Generator}
    {lines : List Line} :
    options.Yields index generators lines ↔ lines = options.linesFrom index generators := by
  constructor
  · intro yields
    induction yields with
    | done finished => rw [linesFrom_eq, finished]
    | line next _ ih => rw [linesFrom_eq, next, ih]
  · rintro rfl
    exact yields_linesFrom options index generators

end Options

section Writing

variable {ω ε : Type} {write : ω → String → Except ε Unit × ω} {output : ω}

def outputAfter (write : ω → String → Except ε Unit × ω) (output : ω) (texts : List String) : ω :=
  texts.foldl (fun output text => (write output text).2) output

/-- Whatever has been written to an output, it accepts the next text. -/
def Unfailing (write : ω → String → Except ε Unit × ω) (output : ω) : Prop :=
  ∀ texts text, (write (outputAfter write output texts) text).1 = .ok ()

theorem Unfailing.behind (unfailing : Unfailing write output) (text : String) :
    Unfailing write (write output text).2 :=
  fun texts => unfailing (text :: texts)

theorem unfailing_whole (received : ByteArray) : Unfailing Buffer.write (.whole received) := by
  intro texts
  induction texts generalizing received with
  | nil =>
      intro text
      exact congrArg Prod.fst (Buffer.write_whole received text)
  | cons first rest ih =>
      have behind := ih (received ++ first.toUTF8)
      rw [outputAfter, List.foldl_cons, Buffer.write_whole]
      exact behind

/-- An output that does not fail gets all lines, and their number is returned. -/
theorem Options.Yields.writeFrom {options : Options} {index : Nat} {generators : List Generator}
    {lines : List Line} (yields : options.Yields index generators lines) (written : Nat)
    (unfailing : Unfailing write output) :
    options.writeFrom write index written generators output =
      (.ok (written + lines.length),
        outputAfter write output (lines.map fun line => line.text ++ "\n")) := by
  induction yields generalizing written output with
  | done finished =>
      rw [Options.writeFrom]
      split
      · rfl
      · rename_i next
        rw [finished] at next
        cases next
  | @line index generators rest line lines next _ ih =>
      have accepted : write output (line.text ++ "\n") =
          (.ok (), (write output (line.text ++ "\n")).2) := Prod.ext (unfailing [] _) rfl
      have count : written + 1 + lines.length = written + (line :: lines).length := by
        rw [List.length_cons]
        omega
      rw [Options.writeFrom]
      split
      · rename_i finished
        rw [next] at finished
        cases finished
      · rename_i found
        rw [next] at found
        cases found
        rw [accepted]
        dsimp only
        rw [ih (written + 1) (unfailing.behind _), count]
        rfl

theorem Options.writeLines_of_unfailing (options : Options) (generators : List Generator)
    (unfailing : Unfailing write output) :
    options.writeLines write generators output =
      (.ok (options.lines generators).length,
        outputAfter write output ((options.lines generators).map fun line => line.text ++ "\n")) := by
  have yields := options.yields_linesFrom 0 generators
  rw [Options.writeLines, yields.writeFrom 0 unfailing, Nat.zero_add, options.lines_eq_linesFrom]

end Writing

namespace Options

/--
A trace tells the visible choices in the order of the stack, one line each, numbered without
gaps.  Taken one by one or written, the lines are the same.
-/
structure Traces (options : Options) (generators : List Generator) : Prop where
  ascending : (options.places generators).Pairwise (· < ·)
  mem_places : ∀ place, place ∈ options.places generators ↔
    ∃ generator value, generators[place]? = some generator ∧ options.Shows generator value
  tells : List.Forall₂ (options.Tells generators) (options.places generators)
    (options.lines generators)
  indices : (options.lines generators).map Line.index =
    List.range (options.places generators).length
  yields : ∀ lines, options.Yields 0 generators lines ↔ lines = options.lines generators

theorem traces (options : Options) (generators : List Generator) :
    options.Traces generators := by
  have tells : List.Forall₂ (options.Tells generators) (options.places generators)
      (options.lines generators) := by
    rw [lines_eq_linesFrom]
    exact forall₂_tells options 0 generators
  exact
    { ascending := options.pairwise_places generators
      mem_places := fun _ => mem_places
      tells
      indices := by rw [lines_index, tells.length_eq]
      yields := fun _ => by rw [yields_iff, lines_eq_linesFrom] }

/--
The lines of a trace are the visible choices, and an output that does not fail gets all of
them.  Which choices they are does not depend on what a line shows, nor on the order in which
the filters list their texts and kinds; with further excluded texts some of them are left.
-/
theorem traces_the_visible_choices (options : Options) (generators : List Generator) :
    options.Traces generators ∧
      (∀ {ω ε : Type} (write : ω → String → Except ε Unit × ω) (output : ω),
        Unfailing write output → options.writeLines write generators output =
          (.ok (options.places generators).length, outputAfter write output
            ((options.lines generators).map fun line => line.text ++ "\n"))) ∧
      (∀ other : Options, SameFilters options other →
        other.places generators = options.places generators) ∧
      ∀ excludes : List String, options.excludes ⊆ excludes →
        (places { options with excludes } generators).Sublist (options.places generators) := by
  have traced := options.traces generators
  refine ⟨traced, ?_, ?_, ?_⟩
  · intro ω ε write output unfailing
    rw [writeLines_of_unfailing options generators unfailing, traced.tells.length_eq]
  · intro other same
    exact places_eq_of_sameFilters same generators
  · intro excludes listed
    apply places_sublist
    intro generator value shown
    exact { shown with unexcluded := fun leading member => shown.unexcluded leading (listed member) }

def mixedStack : List Generator :=
  [{ id := "coin", alternatives := .booleans, taken := 1, taken_le := by decide },
    { id := "gone", alternatives := .ints [7], taken := 1, retired := true, taken_le := by decide },
    { id := "next", alternatives := .ints [8] },
    { id := "small", alternatives := .ints [12, 3], taken := 1, taken_le := by decide },
    { id := "large", alternatives := .longs [21], taken := 1, location := some "Main.rs:9",
      taken_le := by decide }]

theorem mixedStack_traces_the_visible_choices :
    (writeLines { excludes := ["1", ""] } Buffer.write mixedStack (.whole .empty)).1 = .ok 2 ∧
      places { excludes := ["", "1", "1"], showLocation := false } mixedStack = [0, 4] ∧
      (places { excludes := ["1", "", "f"] } mixedStack).Sublist [0, 4] := by
  have shown : places { excludes := ["1", ""] } mixedStack = [0, 4] := by decide
  obtain ⟨-, writes, same, fewer⟩ := traces_the_visible_choices { excludes := ["1", ""] } mixedStack
  rw [shown] at writes same fewer
  refine ⟨?_, ?_, ?_⟩
  · rw [writes Buffer.write (.whole .empty) (unfailing_whole .empty)]
    rfl
  · apply same
    constructor
    · intro leading
      simp [or_comm]
    · intro kind
      rfl
  · apply fewer
    simp

end Options

end Trace

end ChoiceExplorer
