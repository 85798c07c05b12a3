import ChoiceExplorer.Proofs.Runs
import ChoiceExplorer.Proofs.TrimmedTexts
import ChoiceExplorer.Proofs.VisibleChoices
import ChoiceExplorer.Text.Decimal

/-!
# Texts of traces

A trace has no escapes, but its text can be read back: a location is told on a line of its own,
which begins as no line with an index does.
-/

namespace ChoiceExplorer

open Output (Buffer)

namespace Text

theorem digit?_of_isDigit {char : Char} (isDigit : char.isDigit = true) :
    digit? char = some (char.toNat - '0'.toNat) := by
  simp only [Char.isDigit, Bool.and_eq_true, decide_eq_true_eq] at isDigit
  exact if_pos isDigit

theorem digitsFrom_eq {chars : List Char} (areDigits : ∀ char ∈ chars, char.isDigit = true)
    (number : Nat) : digitsFrom number chars = some (Nat.ofDigitChars 10 chars number) := by
  induction chars generalizing number with
  | nil => rfl
  | cons char rest ih =>
      obtain ⟨here, further⟩ := List.forall_mem_cons.mp areDigits
      rw [digitsFrom, digit?_of_isDigit here, Nat.ofDigitChars_cons]
      exact ih further _

/-- The digits of a number are read back. -/
theorem digits?_toDigits (number : Nat) : digits? (Nat.toDigits 10 number) = some number := by
  have areDigits : ∀ char ∈ Nat.toDigits 10 number, char.isDigit = true := fun _ member =>
    Nat.isDigit_of_mem_toDigits (by decide) (by decide) member
  rw [digits?, digitsFrom_eq areDigits, Nat.ofDigitChars_toDigits (by decide) (by decide)]
  simp [Nat.toDigits_ne_nil]

end Text

namespace Trace

namespace Line

/-- Neither the body nor the location of a line holds a line feed. -/
structure IsPlain (line : Line) : Prop where
  body : '\n' ∉ line.body.toList
  location : ∀ location ∈ line.location, '\n' ∉ location.toList

instance (line : Line) : Decidable line.IsPlain :=
  decidable_of_iff ('\n' ∉ line.body.toList ∧
      (line.location.all fun location => '\n' ∉ location.toList) = true) (by
    simp only [Option.all_eq_true, decide_eq_true_eq]
    exact ⟨fun ⟨body, location⟩ => ⟨body, location⟩, fun ⟨body, location⟩ => ⟨body, location⟩⟩)

def heading (line : Line) : List Char :=
  (indexText line.index).toList ++ ':' :: ' ' :: line.body.toList

def placeMark : List Char := [' ', '\t', 'a', 't', ' ']

def texts (line : Line) : List (List Char) :=
  line.heading :: (line.location.map fun location => placeMark ++ location.toList).toList

def numbered? (chars : List Char) : Option (Nat × String) :=
  match Text.splitOnce ':' chars with
  | some (index, ' ' :: body) =>
      (Text.digits? (index.dropWhile (· == ' '))).map fun index => (index, String.ofList body)
  | _ => none

def placed? (chars : List Char) : Option String :=
  if placeMark.isPrefixOf chars then some (String.ofList (chars.drop placeMark.length)) else none

end Line

/-- The lines told by the texts between line feeds, and a location told ahead of them. -/
def readTexts : List (List Char) → Option (Option String × List Line)
  | [] => some (none, [])
  | text :: rest =>
      match readTexts rest, Line.placed? text with
      | some (none, lines), some location => some (some location, lines)
      | some (below, lines), none =>
          (Line.numbered? text).map fun (index, body) => (none, ⟨index, body, below⟩ :: lines)
      | _, _ => none

def linesOf? (text : String) : Option (List Line) :=
  let texts := Text.pieces (· == '\n') text.toList
  match texts.getLast?, readTexts texts.dropLast with
  | some [], some (none, lines) => some lines
  | _, _ => none

namespace Line

/-! ## Single texts -/

theorem toList_indexText (index : Nat) :
    (indexText index).toList =
      List.replicate (4 - (Nat.toDigits 10 index).length) ' ' ++ Nat.toDigits 10 index := by
  have digits : (toString index).toList = Nat.toDigits 10 index := by simp
  rw [indexText, String.toList_append, String.toList_ofList, ← String.length_toList, digits]

theorem four_le_length_indexText (index : Nat) : 4 ≤ (indexText index).toList.length := by
  rw [toList_indexText, List.length_append, List.length_replicate]
  omega

theorem eq_or_isDigit_of_mem {index : Nat} {char : Char}
    (member : char ∈ (indexText index).toList) : char = ' ' ∨ char.isDigit = true := by
  rw [toList_indexText, List.mem_append] at member
  rcases member with blank | digit
  · exact .inl (List.eq_of_mem_replicate blank)
  · exact .inr (Nat.isDigit_of_mem_toDigits (by decide) (by decide) digit)

theorem not_mem_indexText {char : Char} (visible : char ≠ ' ') (noDigit : char.isDigit = false)
    (index : Nat) : char ∉ (indexText index).toList := by
  intro member
  rcases eq_or_isDigit_of_mem member with blank | digit
  · exact visible blank
  · rw [noDigit] at digit
    cases digit

theorem dropWhile_indexText (index : Nat) :
    (indexText index).toList.dropWhile (· == ' ') = Nat.toDigits 10 index := by
  have blank : ∀ char ∈ List.replicate (4 - (Nat.toDigits 10 index).length) ' ',
      (char == ' ') = true := fun char member => beq_iff_eq.mpr (List.eq_of_mem_replicate member)
  rw [toList_indexText, List.dropWhile_append_of_pos blank]
  cases digits : Nat.toDigits 10 index with
  | nil => rfl
  | cons digit rest =>
      have isDigit : digit.isDigit = true :=
        Nat.isDigit_of_mem_toDigits (by decide) (by decide) (digits ▸ List.mem_cons_self)
      refine List.dropWhile_cons_of_neg fun blank => ?_
      rw [beq_iff_eq.mp blank] at isDigit
      cases isDigit

theorem numbered?_heading (line : Line) :
    numbered? line.heading = some (line.index, line.body) := by
  have split : Text.splitOnce ':' line.heading =
      some ((indexText line.index).toList, ' ' :: line.body.toList) :=
    Text.splitOnce_eq_some_iff.mpr ⟨rfl, not_mem_indexText (by decide) (by decide) line.index⟩
  simp only [numbered?, split, dropWhile_indexText, Text.digits?_toDigits, Option.map_some,
    String.ofList_toList]

/-- The mark of a location has a tab where an index has none. -/
theorem placed?_heading (line : Line) : placed? line.heading = none := by
  refine if_neg fun begins => ?_
  have mark : placeMark.take 2 <+: line.heading :=
    (List.take_prefix 2 placeMark).trans (List.isPrefixOf_iff_prefix.mp begins)
  have index : (indexText line.index).toList <+: line.heading := List.prefix_append _ _
  have short : (placeMark.take 2).length ≤ (indexText line.index).toList.length :=
    Nat.le_trans (by decide) (four_le_length_indexText line.index)
  have inside := List.prefix_of_prefix_length_le mark index short
  have tab : '\t' ∈ placeMark.take 2 := by decide
  exact not_mem_indexText (by decide) (by decide) line.index (inside.subset tab)

theorem placed?_append (location : String) :
    placed? (placeMark ++ location.toList) = some location := by
  have begins : placeMark.isPrefixOf (placeMark ++ location.toList) = true :=
    List.isPrefixOf_iff_prefix.mpr (List.prefix_append _ _)
  rw [placed?, if_pos begins, List.drop_left, String.ofList_toList]

/-! ## Lines -/

theorem readTexts_append (line : Line) {rest : List (List Char)} {lines : List Line}
    (read : readTexts rest = some (none, lines)) :
    readTexts (line.texts ++ rest) = some (none, line :: lines) := by
  obtain ⟨index, body, location⟩ := line
  cases location with
  | none =>
      show readTexts (heading ⟨index, body, none⟩ :: rest) = _
      simp only [readTexts, read, placed?_heading, numbered?_heading, Option.map_some]
  | some location =>
      show readTexts
        (heading ⟨index, body, some location⟩ :: (placeMark ++ location.toList) :: rest) = _
      simp only [readTexts, read, placed?_append, placed?_heading, numbered?_heading,
        Option.map_some]

theorem not_mem_heading {line : Line} (plain : line.IsPlain) : '\n' ∉ line.heading := by
  simp only [heading, List.mem_append, List.mem_cons, not_or]
  exact ⟨not_mem_indexText (by decide) (by decide) _, by decide, by decide, plain.body⟩

theorem toList_heading (line : Line) :
    (indexText line.index ++ ": " ++ line.body).toList = line.heading := by
  simp [heading]

/-- The texts of a line are the pieces between its line feeds. -/
theorem pieces_text {line : Line} (plain : line.IsPlain) :
    Text.pieces (· == '\n') line.text.toList = line.texts := by
  have free {chars : List Char} (noFeed : '\n' ∉ chars) :
      Text.pieces (· == '\n') chars = [chars] := by
    refine Text.pieces_of_forall fun char member => beq_eq_false_iff_ne.mpr ?_
    rintro rfl
    exact noFeed member
  rw [text, String.toList_append, toList_heading]
  cases place : line.location with
  | none =>
      rw [texts, place]
      simpa using free (not_mem_heading plain)
  | some location =>
      have noFeed : '\n' ∉ placeMark ++ location.toList := by
        rw [List.mem_append, not_or]
        exact ⟨by decide, plain.location location place⟩
      have below : ("\n \tat " ++ location).toList = '\n' :: (placeMark ++ location.toList) := by
        simp [placeMark]
      rw [texts, place]
      simp only [below]
      rw [Text.pieces_append_cons _ (by decide), free (not_mem_heading plain), free noFeed]
      rfl

end Line

variable {lines : List Line}

theorem toList_linesText_cons (line : Line) (rest : List Line) :
    (linesText (line :: rest)).toList = line.text.toList ++ '\n' :: (linesText rest).toList := by
  simp [linesText]

theorem pieces_linesText (plain : ∀ line ∈ lines, line.IsPlain) :
    Text.pieces (· == '\n') (linesText lines).toList = lines.flatMap Line.texts ++ [[]] := by
  induction lines with
  | nil => rfl
  | cons line rest ih =>
      obtain ⟨here, further⟩ := List.forall_mem_cons.mp plain
      rw [toList_linesText_cons, Text.pieces_append_cons _ (by decide), Line.pieces_text here,
        ih further, List.flatMap_cons, List.append_assoc]

theorem readTexts_flatMap (lines : List Line) :
    readTexts (lines.flatMap Line.texts) = some (none, lines) := by
  induction lines with
  | nil => rfl
  | cons line rest ih => exact line.readTexts_append ih

/-- The text of lines is read back. -/
theorem linesOf?_linesText (plain : ∀ line ∈ lines, line.IsPlain) :
    linesOf? (linesText lines) = some lines := by
  simp only [linesOf?, pieces_linesText plain, List.getLast?_concat, List.dropLast_concat,
    readTexts_flatMap]

theorem outputAfter_whole (received : ByteArray) (texts : List String) :
    outputAfter Buffer.write (.whole received) texts =
      .whole (received ++ Buffer.bytesOf texts) := by
  induction texts generalizing received with
  | nil => rw [Buffer.bytesOf_nil, ByteArray.append_empty]; rfl
  | cons text rest ih =>
      rw [outputAfter, List.foldl_cons, Buffer.write_whole, Buffer.bytesOf_cons,
        ← ByteArray.append_assoc]
      exact ih (received ++ text.toUTF8)

/-- What is written of a trace is the text of its lines. -/
theorem writeLines_whole (options : Options) (generators : List Generator) :
    options.writeLines Buffer.write generators (.whole .empty) =
      (.ok (options.lines generators).length,
        .whole (linesText (options.lines generators)).toUTF8) := by
  rw [options.writeLines_of_unfailing generators (unfailing_whole .empty), outputAfter_whole,
    ByteArray.empty_append]
  rfl

/--
The text of lines determines them: whatever their bodies and locations look like, the lines
are read back from it.  It is the text that is written of a trace with these lines.
-/
theorem text_determines_lines (plain : ∀ line ∈ lines, line.IsPlain) :
    linesOf? (linesText lines) = some lines ∧
      (∀ others : List Line, (∀ line ∈ others, line.IsPlain) →
        linesText others = linesText lines → others = lines) ∧
      ∀ (options : Options) (generators : List Generator), options.lines generators = lines →
        options.writeLines Buffer.write generators (.whole .empty) =
          (.ok lines.length, .whole (linesText lines).toUTF8) := by
  refine ⟨linesOf?_linesText plain, fun others plainOthers same => ?_, ?_⟩
  · have read := linesOf?_linesText plainOthers
    rw [same, linesOf?_linesText plain] at read
    exact (Option.some.inj read).symm
  · rintro options generators rfl
    exact writeLines_whole options generators

def disguisedLines : List Line :=
  [⟨0, "ThreadInfo[name=: \tat 1,id=7]", some "   1: true"⟩, ⟨1, "12", some " \tat    2: false"⟩,
    ⟨2, "true", none⟩]

def disguisedStack : List Generator :=
  [{ id := "t", alternatives := .threads [⟨.ofNat 7, ": \tat 1"⟩], taken := 1,
      location := some "   1: true", taken_le := by decide },
    { id := "n", alternatives := .ints [12], taken := 1, location := some " \tat    2: false",
      taken_le := by decide },
    { id := "b", alternatives := .booleans, taken := 2, location := some "",
      taken_le := by decide }]

theorem disguised_text_determines_lines :
    (∀ line ∈ disguisedLines, line.IsPlain) ∧
      linesOf? (linesText disguisedLines) = some disguisedLines ∧
      Options.lines { format := .value } disguisedStack = disguisedLines ∧
      Options.writeLines { format := .value } Buffer.write disguisedStack (.whole .empty) =
        (.ok 3, .whole (linesText disguisedLines).toUTF8) := by
  have plain : ∀ line ∈ disguisedLines, line.IsPlain := by decide
  obtain ⟨read, determined, written⟩ := text_determines_lines plain
  have same : Options.lines { format := .value } disguisedStack = disguisedLines := by
    apply determined
    · decide
    · decide
  exact ⟨plain, read, same, written { format := .value } disguisedStack same⟩

end Trace

end ChoiceExplorer
