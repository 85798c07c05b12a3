import Mathlib.Data.List.DropRight
import ChoiceExplorer.Proofs.PropertyLines

/-!
# Trimmed texts and leading lines

Trimming takes the blanks from both ends of a text and nothing else, so that it leaves a
text as it is exactly when no blank stands at either end.  A text is split at its first
separator, and at line feeds into lines; the text of its first lines has just these lines.
-/

namespace ChoiceExplorer.Text

/-- No blank stands at either end of a text. -/
structure IsTrimmed (chars : List Char) : Prop where
  first : ∀ char ∈ chars.head?, isBlank char = false
  last : ∀ char ∈ chars.getLast?, isBlank char = false

-- Said with `all`, so that only the ends are tested and not every character there is.
instance (chars : List Char) : Decidable (IsTrimmed chars) :=
  decidable_of_iff ((chars.head?.all fun char => !isBlank char) = true ∧
      (chars.getLast?.all fun char => !isBlank char) = true) (by
    simp only [Option.all_eq_true, Bool.not_eq_true']
    exact ⟨fun both => ⟨both.1, both.2⟩, fun trimmed => ⟨trimmed.first, trimmed.last⟩⟩)

theorem trim_eq (chars : List Char) :
    trim chars = (chars.dropWhile isBlank).rdropWhile isBlank := rfl

theorem mem_of_mem_trim {chars : List Char} {char : Char} (member : char ∈ trim chars) :
    char ∈ chars := by
  rw [trim_eq] at member
  have inside := (List.rdropWhile_prefix isBlank (l := chars.dropWhile isBlank)).subset member
  exact (List.dropWhile_suffix isBlank).subset inside

/-- Trimming leaves nothing of a text that is blank, and only of such a text. -/
theorem trim_eq_nil_iff {chars : List Char} :
    trim chars = [] ↔ ∀ char ∈ chars, isBlank char = true := by
  rw [trim_eq, List.rdropWhile_eq_nil_iff]
  constructor
  · intro blank char member
    rw [← List.takeWhile_append_dropWhile (p := isBlank) (l := chars), List.mem_append] at member
    rcases member with front | back
    · exact List.mem_takeWhile_imp front
    · exact blank char back
  · intro blank char member
    exact blank char ((List.dropWhile_suffix isBlank).subset member)

/-- A text that is not blank begins with blanks, and then with what its trimmed text begins with. -/
theorem exists_of_head?_trim {chars : List Char} {char : Char}
    (begins : (trim chars).head? = some char) :
    ∃ blanks rest, chars = blanks ++ char :: rest ∧
      (∀ blank ∈ blanks, isBlank blank = true) ∧ isBlank char = false := by
  obtain ⟨cut, joined⟩ := List.rdropWhile_prefix isBlank (l := chars.dropWhile isBlank)
  rw [← trim_eq] at joined
  have headed : (chars.dropWhile isBlank).head? = some char := by
    rw [← joined, List.head?_append, begins, Option.some_or]
  have visible := List.head?_dropWhile_not isBlank chars
  rw [headed] at visible
  obtain ⟨rest, left⟩ := List.head?_eq_some_iff.mp headed
  refine ⟨chars.takeWhile isBlank, rest, ?_, fun _ => List.mem_takeWhile_imp, visible⟩
  rw [← left, List.takeWhile_append_dropWhile]

theorem isTrimmed_trim (chars : List Char) : IsTrimmed (trim chars) := by
  constructor
  · intro char begins
    obtain ⟨-, -, -, -, visible⟩ := exists_of_head?_trim begins
    exact visible
  · intro char ends
    have made : trim chars ≠ [] := by
      rintro empty
      rw [empty] at ends
      cases ends
    rw [List.getLast?_eq_some_getLast made, Option.mem_some_iff] at ends
    rw [← ends]
    exact Bool.eq_false_iff.mpr (List.rdropWhile_last_not isBlank _ made)

theorem trim_of_isTrimmed {chars : List Char} (trimmed : IsTrimmed chars) :
    trim chars = chars := by
  have front : chars.dropWhile isBlank = chars := by
    apply List.dropWhile_eq_self_iff.mpr
    intro made
    exact Bool.eq_false_iff.mp (trimmed.first _ (List.head?_eq_getElem? ▸ List.getElem?_eq_getElem made))
  rw [trim_eq, front]
  apply List.rdropWhile_eq_self_iff.mpr
  intro made
  exact Bool.eq_false_iff.mp (trimmed.last _ (List.getLast_mem_getLast? made))

/-- A text splits where its first separator stands. -/
theorem splitOnce_eq_some_iff {separator : Char} {chars before after : List Char} :
    splitOnce separator chars = some (before, after) ↔
      chars = before ++ separator :: after ∧ separator ∉ before := by
  unfold splitOnce
  constructor
  · intro split
    have plain : separator ∉ chars.takeWhile (· != separator) := by
      intro member
      simpa using List.mem_takeWhile_imp member
    have joined := List.takeWhile_append_dropWhile (p := (· != separator)) (l := chars)
    have stops := List.head?_dropWhile_not (· != separator) chars
    cases left : chars.dropWhile (· != separator) with
    | nil => rw [left] at split; cases split
    | cons first rest =>
        rw [left] at split joined stops
        cases split
        obtain rfl : first = separator := by simpa using stops
        exact ⟨joined.symm, plain⟩
  · rintro ⟨rfl, plain⟩
    have passes : ∀ char ∈ before, (char != separator) = true := by
      intro char member
      apply bne_iff_ne.mpr
      rintro rfl
      exact plain member
    rw [List.dropWhile_append_of_pos passes, List.takeWhile_append_of_pos passes]
    simp

theorem splitOnce_eq_none_iff {separator : Char} {chars : List Char} :
    splitOnce separator chars = none ↔ separator ∉ chars := by
  constructor
  · intro whole member
    obtain ⟨before, after, parts⟩ := List.eq_append_cons_of_mem member
    rw [splitOnce_eq_some_iff.mpr parts] at whole
    cases whole
  · intro plain
    cases split : splitOnce separator chars with
    | none => rfl
    | some parts =>
        obtain ⟨before, after⟩ := parts
        obtain ⟨rfl, -⟩ := splitOnce_eq_some_iff.mp split
        exact absurd (List.mem_append_right before List.mem_cons_self) plain

/-- No line holds a line feed. -/
theorem feed_not_mem_lines {chars line : List Char} (member : line ∈ lines chars) :
    '\n' ∉ line := by
  fun_induction lines chars generalizing line with
  | case1 => cases member
  | case2 rest ih =>
      rcases List.mem_cons.mp member with rfl | later
      · exact List.not_mem_nil
      · exact ih later
  | case3 rest ih =>
      rcases List.mem_cons.mp member with rfl | later
      · exact List.not_mem_nil
      · exact ih later
  | case4 char rest notFeed notPair empty ih =>
      obtain rfl := List.mem_singleton.mp member
      intro feed
      exact notFeed (List.mem_singleton.mp feed).symm
  | case5 char rest notFeed notPair first later split ih =>
      rw [split] at ih
      rcases List.mem_cons.mp member with rfl | below
      · intro feed
        rcases List.mem_cons.mp feed with here | further
        · exact notFeed here.symm
        · exact ih List.mem_cons_self further
      · exact ih (List.mem_cons_of_mem first below)

/-- What a line feed ends is a line, unless a carriage return stands before it. -/
theorem lines_append_feed {line : List Char} (plain : '\n' ∉ line)
    (ends : line.getLast? ≠ some '\r') (rest : List Char) :
    lines (line ++ '\n' :: rest) = line :: lines rest := by
  induction line with
  | nil => rfl
  | cons char later ih =>
      obtain ⟨notFeed, further⟩ := not_or.mp (List.mem_cons.not.mp plain)
      have below : lines (later ++ '\n' :: rest) = later :: lines rest := by
        refine ih further fun carriage => ends ?_
        rw [List.getLast?_cons, carriage, Option.getD_some]
      rw [List.cons_append, lines, below]
      · exact Ne.symm notFeed
      · intro more carriage pair
        cases later with
        | nil => exact ends (by rw [carriage, List.getLast?_singleton])
        | cons next later => exact further (by rw [(List.cons.inj pair).1]; exact List.mem_cons_self)

def firstLines : Nat → List Char → List Char
  | 0, _ => []
  | _ + 1, [] => []
  | count + 1, char :: rest =>
      if char = '\n' then char :: firstLines count rest else char :: firstLines (count + 1) rest

theorem firstLines_prefix (count : Nat) (chars : List Char) : firstLines count chars <+: chars := by
  fun_induction firstLines count chars with
  | case1 chars => exact List.nil_prefix
  | case2 => exact List.nil_prefix
  | case3 count rest ih => exact (List.prefix_cons_inj _).mpr ih
  | case4 count char rest notFeed ih => exact (List.prefix_cons_inj _).mpr ih

theorem lines_firstLines (count : Nat) (chars : List Char) :
    lines (firstLines count chars) = (lines chars).take count := by
  fun_induction lines chars generalizing count with
  | case1 => cases count <;> rfl
  | case2 rest ih =>
      cases count with
      | zero => rfl
      | succ count =>
          rw [firstLines, if_pos rfl, lines, ih, List.take_succ_cons]
  | case3 rest ih =>
      cases count with
      | zero => rfl
      | succ count =>
          rw [firstLines, if_neg (by decide), firstLines, if_pos rfl, lines, ih,
            List.take_succ_cons]
  | case4 char rest notFeed notPair empty ih =>
      cases count with
      | zero => rfl
      | succ count =>
          cases rest with
          | nil =>
              rw [firstLines, if_neg notFeed, firstLines, List.take_succ_cons, List.take_nil, lines]
              · rfl
              · exact notFeed
              · intro more carriage pair
                cases pair
          | cons next rest => exact absurd empty (lines_ne_nil (List.cons_ne_nil _ _))
  | case5 char rest notFeed notPair line later split ih =>
      cases count with
      | zero => rfl
      | succ count =>
          have further := ih (count + 1)
          rw [split, List.take_succ_cons] at further
          rw [firstLines, if_neg notFeed, List.take_succ_cons, lines, further]
          · exact notFeed
          · intro more carriage pair
            obtain ⟨cut, joined⟩ := firstLines_prefix (count + 1) rest
            rw [pair] at joined
            exact notPair (more ++ cut) carriage joined.symm

end ChoiceExplorer.Text
