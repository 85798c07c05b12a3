import ChoiceExplorer.Text.Blank

/-!
# Pieces and runs

The pieces of a text stand between single separators, and its runs are the pieces that are not
empty.  Between runs there are gaps, each of one separator or more, and the text may begin and
end with a gap; this determines the runs.
-/

namespace ChoiceExplorer.Text

variable {separates : Char → Bool} {chars : List Char}

theorem pieces_eq_splitOnP (separates : Char → Bool) (chars : List Char) :
    pieces separates chars = chars.splitOnP separates := by
  induction chars with
  | nil => rfl
  | cons char rest ih =>
      rw [pieces, ih, List.splitOnP_cons_eq_if_modifyHead]
      split
      · rfl
      · obtain ⟨piece, later, made⟩ :=
          List.exists_cons_of_ne_nil (List.splitOnP_ne_nil separates rest)
        rw [made, List.modifyHead_cons]

/-- A separator ends a piece. -/
theorem pieces_append_cons (front : List Char) {separator : Char}
    (isSeparator : separates separator = true) (rest : List Char) :
    pieces separates (front ++ separator :: rest) =
      pieces separates front ++ pieces separates rest := by
  simp only [pieces_eq_splitOnP]
  exact List.splitOnP_append_cons front rest isSeparator

/-- A text without separators is one piece. -/
theorem pieces_of_forall (free : ∀ char ∈ chars, separates char = false) :
    pieces separates chars = [chars] := by
  rw [pieces_eq_splitOnP]
  exact List.splitOnP_eq_singleton free

def IsGap (separates : Char → Bool) (chars : List Char) : Prop :=
  ∀ char ∈ chars, separates char = true

structure IsRun (separates : Char → Bool) (chars : List Char) : Prop where
  made : chars ≠ []
  free : ∀ char ∈ chars, separates char = false

/-- A text in which runs stand in order, with a gap before each and behind the last of them. -/
inductive Holds (separates : Char → Bool) : List (List Char) → List Char → Prop where
  | gap {gap : List Char} (isGap : IsGap separates gap) : Holds separates [] gap
  | run {gap run behind : List Char} {runs : List (List Char)} (isGap : IsGap separates gap)
      (isRun : IsRun separates run) (ends : ∀ next ∈ behind.head?, separates next = true)
      (further : Holds separates runs behind) :
      Holds separates (run :: runs) (gap ++ (run ++ behind))

theorem runs_append_cons (front : List Char) {separator : Char}
    (isSeparator : separates separator = true) (rest : List Char) :
    runs separates (front ++ separator :: rest) = runs separates front ++ runs separates rest := by
  rw [runs, pieces_append_cons front isSeparator, List.filter_append]
  rfl

/-- A gap at the beginning belongs to no run. -/
theorem runs_append_gap {gap : List Char} (isGap : IsGap separates gap) (rest : List Char) :
    runs separates (gap ++ rest) = runs separates rest := by
  induction gap with
  | nil => rfl
  | cons separator gap ih =>
      obtain ⟨here, further⟩ := List.forall_mem_cons.mp isGap
      exact (runs_append_cons [] here (gap ++ rest)).trans (ih further)

theorem runs_of_isRun (isRun : IsRun separates chars) : runs separates chars = [chars] := by
  rw [runs, pieces_of_forall isRun.free]
  simp [isRun.made]

/-- A run at the beginning is the first one, if a separator ends it. -/
theorem runs_append_run (isRun : IsRun separates chars) {behind : List Char}
    (ends : ∀ next ∈ behind.head?, separates next = true) :
    runs separates (chars ++ behind) = chars :: runs separates behind := by
  cases behind with
  | nil => rw [List.append_nil, runs_of_isRun isRun]; rfl
  | cons separator rest =>
      have isSeparator : separates separator = true := ends separator rfl
      rw [runs_append_cons chars isSeparator, runs_of_isRun isRun]
      exact congrArg (chars :: ·) (runs_append_cons [] isSeparator rest).symm

namespace Holds

variable {held : List (List Char)}

theorem runs_eq (holds : Holds separates held chars) : runs separates chars = held := by
  induction holds with
  | gap isGap => simpa [runs, pieces] using runs_append_gap isGap []
  | run isGap isRun ends _ ih => rw [runs_append_gap isGap, runs_append_run isRun ends, ih]

theorem areRuns (holds : Holds separates held chars) : ∀ run ∈ held, IsRun separates run := by
  induction holds with
  | gap isGap => exact List.forall_mem_nil _
  | run isGap isRun ends _ ih => exact List.forall_mem_cons.mpr ⟨isRun, ih⟩

theorem ofRun {run behind : List Char} (isRun : IsRun separates run)
    (ends : ∀ next ∈ behind.head?, separates next = true) (further : Holds separates held behind) :
    Holds separates (run :: held) (run ++ behind) := by
  have empty : IsGap separates [] := List.forall_mem_nil _
  exact .run empty isRun ends further

theorem single (isRun : IsRun separates chars) : Holds separates [chars] chars := by
  have ends : ∀ next ∈ ([] : List Char).head?, separates next = true := fun _ none => by cases none
  have holds := ofRun isRun ends (.gap (List.forall_mem_nil _))
  rwa [List.append_nil] at holds

/-- A separator makes the first gap longer. -/
theorem cons_separator {separator : Char} (isSeparator : separates separator = true)
    (holds : Holds separates held chars) : Holds separates held (separator :: chars) := by
  cases holds with
  | gap isGap => exact .gap (List.forall_mem_cons.mpr ⟨isSeparator, isGap⟩)
  | run isGap isRun ends further =>
      exact .run (List.forall_mem_cons.mpr ⟨isSeparator, isGap⟩) isRun ends further

/-- Another character makes the first run longer, or is a run before the first gap. -/
theorem exists_cons {char : Char} (free : separates char = false)
    (holds : Holds separates held chars) : ∃ held, Holds separates held (char :: chars) := by
  have alone : IsRun separates [char] := ⟨List.cons_ne_nil _ _, by simpa using free⟩
  cases holds with
  | gap isGap =>
      refine ⟨_, ofRun alone (fun next first => ?_) (.gap isGap)⟩
      exact isGap next (List.mem_of_mem_head? first)
  | @run gap run behind runs isGap isRun ends further =>
      cases gap with
      | nil =>
          have longer : IsRun separates (char :: run) :=
            ⟨List.cons_ne_nil _ _, List.forall_mem_cons.mpr ⟨free, isRun.free⟩⟩
          exact ⟨_, ofRun longer ends further⟩
      | cons separator gap =>
          refine ⟨_, ofRun alone (fun next first => ?_) (.run isGap isRun ends further)⟩
          obtain rfl : separator = next := Option.mem_some_iff.mp first
          exact isGap separator List.mem_cons_self

end Holds

theorem exists_holds (separates : Char → Bool) (chars : List Char) :
    ∃ held, Holds separates held chars := by
  induction chars with
  | nil => exact ⟨[], .gap (List.forall_mem_nil _)⟩
  | cons char rest ih =>
      obtain ⟨held, holds⟩ := ih
      cases isSeparator : separates char with
      | true => exact ⟨held, holds.cons_separator isSeparator⟩
      | false => exact holds.exists_cons isSeparator

/-- The runs of a text are those that stand in it between gaps. -/
theorem runs_eq_iff {held : List (List Char)} :
    runs separates chars = held ↔ Holds separates held chars := by
  constructor
  · rintro rfl
    obtain ⟨held, holds⟩ := exists_holds separates chars
    rwa [holds.runs_eq]
  · exact Holds.runs_eq

/-- Runs joined by separators are held by the joined text. -/
theorem holds_intercalate {separator : Char} (isSeparator : separates separator = true)
    {held : List (List Char)} (areRuns : ∀ run ∈ held, IsRun separates run) :
    Holds separates held ([separator].intercalate held) := by
  induction held with
  | nil => exact .gap (List.forall_mem_nil _)
  | cons run rest ih =>
      obtain ⟨here, further⟩ := List.forall_mem_cons.mp areRuns
      cases rest with
      | nil =>
          rw [List.intercalate_singleton]
          exact .single here
      | cons next rest =>
          rw [List.intercalate_cons_cons, List.append_assoc, List.singleton_append]
          exact .ofRun here (fun next first => Option.mem_some_iff.mp first ▸ isSeparator)
            ((ih further).cons_separator isSeparator)

end ChoiceExplorer.Text
