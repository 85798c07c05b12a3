import Mathlib.Tactic.SplitIfs
import ChoiceExplorer.Json.Value
import ChoiceExplorer.Json.Writer

/-!
# Reading back written JSON

A string that is written as JSON is read back as it was, whatever characters it holds, and
so is an object with strings under its keys.
-/

open ChoiceExplorer.Json.Tree (Piece shortEscape? unit? pieces? join?)

namespace ChoiceExplorer.Json

/-- How a character can be written in a string: as it is, by a letter, or by its code. -/
inductive Spells (char : Char) : List Char → Prop where
  | plain (visible : ¬char.toNat < 0x20) (notQuote : char ≠ '"') (notBackslash : char ≠ '\\') :
      Spells char [char]
  | letter {escape : Char} (named : shortEscape? escape = some char) : Spells char ['\\', escape]
  | code {first second third fourth : Char} (control : char.toNat < 0x20)
      (unit : unit? first second third fourth = some char.toNat) :
      Spells char ['\\', 'u', first, second, third, fourth]

/-- The codes of control characters have two digits behind two zeros. -/
theorem control_digits : ∀ code < 0x20,
    List.replicate (4 - (Nat.toDigits 16 code).length) '0' ++ Nat.toDigits 16 code =
        ['0', '0', Nat.digitChar (code / 16), Nat.digitChar (code % 16)] ∧
      unit? '0' '0' (Nat.digitChar (code / 16)) (Nat.digitChar (code % 16)) = some code := by
  decide +kernel

theorem spells_escaped (char : Char) : Spells char (escaped char).toList := by
  unfold escaped
  split_ifs with quote backslash backspace tab feed form carriage control
  · rw [beq_iff_eq.mp quote]
    exact .letter rfl
  · rw [beq_iff_eq.mp backslash]
    exact .letter rfl
  · rw [beq_iff_eq.mp backspace]
    exact .letter rfl
  · rw [beq_iff_eq.mp tab]
    exact .letter rfl
  · rw [beq_iff_eq.mp feed]
    exact .letter rfl
  · rw [beq_iff_eq.mp form]
    exact .letter rfl
  · rw [beq_iff_eq.mp carriage]
    exact .letter rfl
  · obtain ⟨digits, unit⟩ := control_digits char.toNat control
    rw [String.toList_append, digits, String.toList_ofList, String.toList_ofList]
    exact .code control unit
  · rw [Char.toString, String.toList_singleton]
    exact .plain control (fun same => quote (beq_iff_eq.mpr same))
      fun same => backslash (beq_iff_eq.mpr same)

def Tree.Piece.StandsFor (piece : Piece) (char : Char) : Prop :=
  piece = .char char ∨ piece = .unit char.toNat ∧ char.toNat < 0x20

theorem pieces?_of_spells {char : Char} {spelling : List Char} (spells : Spells char spelling) :
    ∃ piece : Piece, piece.StandsFor char ∧ ∀ rest,
      pieces? (spelling ++ rest) =
        (pieces? rest).bind fun read => some (piece :: read.1, read.2) := by
  cases spells with
  | plain visible notQuote notBackslash =>
      refine ⟨.char char, .inl rfl, fun rest => ?_⟩
      rw [List.singleton_append, pieces?, if_neg visible]
      · rfl
      · exact notQuote
      · intro _ _ _ _ _ same
        exact absurd same notBackslash
      · intro _ _ same
        exact absurd same notBackslash
  | letter named =>
      rename_i escape
      refine ⟨.char char, .inl rfl, fun rest => ?_⟩
      rw [List.cons_append, List.singleton_append, pieces?, named]
      · rfl
      · intro _ _ _ _ _ isU
        rw [isU] at named
        cases named
  | code control unit =>
      refine ⟨.unit char.toNat, .inr ⟨rfl, control⟩, fun rest => ?_⟩
      simp only [List.cons_append, List.nil_append]
      rw [pieces?, unit]
      rfl

theorem join?_cons {piece : Piece} {char : Char} (stands : piece.StandsFor char)
    (rest : List Piece) : join? (piece :: rest) = (join? rest).map (char :: ·) := by
  rcases stands with rfl | ⟨rfl, control⟩
  · rw [join?]
  · have low : ¬(0xd800 ≤ char.toNat ∧ char.toNat < 0xdc00) := by omega
    have high : ¬(0xdc00 ≤ char.toNat ∧ char.toNat < 0xe000) := by omega
    have both : ¬(0xd800 ≤ char.toNat ∧ char.toNat < 0xe000) := by omega
    cases rest with
    | nil => simp [join?, both]
    | cons next rest =>
        cases next with
        | char next => simp [join?, both]
        | unit next => simp [join?, low, high]

/-- A written text is read back up to the quote that ends it. -/
theorem exists_pieces (chars : List Char) :
    ∃ pieces, join? pieces = some chars ∧ ∀ rest,
      pieces? (chars.flatMap (fun char => (escaped char).toList) ++ '"' :: rest) =
        some (pieces, rest) := by
  induction chars with
  | nil => exact ⟨[], rfl, fun rest => rfl⟩
  | cons char chars ih =>
      obtain ⟨later, joined, further⟩ := ih
      obtain ⟨piece, stands, reads⟩ := pieces?_of_spells (spells_escaped char)
      refine ⟨piece :: later, ?_, fun rest => ?_⟩
      · rw [join?_cons stands, joined, Option.map_some]
      · rw [List.flatMap_cons, List.append_assoc, reads, further]
        rfl

theorem toList_stringText (text : String) :
    (stringText text).toList =
      '"' :: (text.toList.flatMap (fun char => (escaped char).toList) ++ ['"']) := by
  simp [stringText, List.flatMap_map]

theorem readString?_stringText (text : String) :
    ∃ body, (stringText text).toList = '"' :: body ∧ ∀ rest,
      Tree.readString? (body ++ rest) = some (some text, rest) := by
  obtain ⟨pieces, joined, reads⟩ := exists_pieces text.toList
  refine ⟨_, toList_stringText text, fun rest => ?_⟩
  rw [Tree.readString?, List.append_assoc, List.singleton_append, reads]
  simp [joined]

def memberText (member : String × String) : String :=
  stringText member.1 ++ ":" ++ stringText member.2

def Tree.ofStrings (members : List (String × String)) : List (Option String × Tree) :=
  members.map fun member => (some member.1, .string (some member.2))

theorem skipBlanks_cons {char : Char} (visible : Tree.isBlank char = false) (rest : List Char) :
    Tree.skipBlanks (char :: rest) = char :: rest := by
  rw [Tree.skipBlanks, List.dropWhile_cons_of_neg (by simp [visible])]

theorem readValue?_stringText (text : String) (fuel : Nat) (rest : List Char) :
    Tree.readValue? (fuel + 1) ((stringText text).toList ++ rest) =
      some (.string (some text), rest) := by
  obtain ⟨body, written, reads⟩ := readString?_stringText text
  rw [written, List.cons_append, Tree.readValue?, skipBlanks_cons (by decide)]
  simp only [reads, Option.map_some]

theorem exists_memberText (member : String × String) (rest : List Char) :
    ∃ key, (memberText member).toList ++ rest =
        '"' :: (key ++ ':' :: ((stringText member.2).toList ++ rest)) ∧
      ∀ rest, Tree.readString? (key ++ rest) = some (some member.1, rest) := by
  obtain ⟨key, keyText, readKey⟩ := readString?_stringText member.1
  refine ⟨key, ?_, readKey⟩
  simp [memberText, keyText]

theorem skipBlanks_colon (rest : List Char) : Tree.skipBlanks (':' :: rest) = ':' :: rest :=
  skipBlanks_cons (by decide) rest

/-- A member before the closing brace is the last one. -/
theorem readMembers?_last (member : String × String) (fuel : Nat) (rest : List Char) :
    Tree.readMembers? (fuel + 2) ((memberText member).toList ++ '\x7d' :: rest) =
      some ([(some member.1, .string (some member.2))], rest) := by
  obtain ⟨key, written, readKey⟩ := exists_memberText member ('\x7d' :: rest)
  have closing : Tree.skipBlanks ('\x7d' :: rest) = '\x7d' :: rest :=
    skipBlanks_cons (by decide) rest
  rw [written, Tree.readMembers?, skipBlanks_cons (by decide)]
  simp only [readKey, Option.bind_eq_bind, Option.bind_some, skipBlanks_colon,
    readValue?_stringText, closing]

/-- Behind a member and a comma further members are read. -/
theorem readMembers?_comma (member : String × String) {fuel : Nat} {rest last : List Char}
    {members : List (Option String × Tree)}
    (further : Tree.readMembers? (fuel + 1) rest = some (members, last)) :
    Tree.readMembers? (fuel + 2) ((memberText member).toList ++ ',' :: rest) =
      some ((some member.1, .string (some member.2)) :: members, last) := by
  obtain ⟨key, written, readKey⟩ := exists_memberText member (',' :: rest)
  have comma : Tree.skipBlanks (',' :: rest) = ',' :: rest := skipBlanks_cons (by decide) rest
  rw [written, Tree.readMembers?, skipBlanks_cons (by decide)]
  simp only [readKey, Option.bind_eq_bind, Option.bind_some, skipBlanks_colon,
    readValue?_stringText, comma, further]

/-- Members divided by commas are read up to the closing brace. -/
theorem readMembers?_written {members : List (String × String)} (made : members ≠ [])
    {fuel : Nat} (enough : members.length < fuel) (rest : List Char) :
    Tree.readMembers? fuel
        ((",".intercalate (members.map memberText)).toList ++ '\x7d' :: rest) =
      some (Tree.ofStrings members, rest) := by
  induction members generalizing fuel with
  | nil => exact absurd rfl made
  | cons member later ih =>
      rw [List.length_cons] at enough
      obtain ⟨left, rfl⟩ : ∃ left, fuel = left + 2 := ⟨fuel - 2, by omega⟩
      cases later with
      | nil =>
          rw [List.map_singleton, String.intercalate_singleton, readMembers?_last]
          rfl
      | cons next later =>
          have further := ih (List.cons_ne_nil next later) (Nat.lt_of_succ_lt_succ enough)
          rw [List.map_cons, String.intercalate_cons_of_ne_nil (by simp), String.toList_append,
            String.toList_append, List.append_assoc, List.append_assoc]
          exact readMembers?_comma member further

/-- Texts that are not empty are at least as many characters as they are texts. -/
theorem length_le_intercalate {texts : List String}
    (made : ∀ text ∈ texts, 1 ≤ text.toList.length) :
    texts.length ≤ (",".intercalate texts).toList.length := by
  induction texts with
  | nil => exact Nat.zero_le _
  | cons text later ih =>
      obtain ⟨here, further⟩ := List.forall_mem_cons.mp made
      cases later with
      | nil =>
          rw [String.intercalate_singleton]
          exact here
      | cons next later =>
          have below := ih further
          rw [String.intercalate_cons_of_ne_nil (by simp), String.toList_append,
            String.toList_append, List.length_append, List.length_append, List.length_cons]
          omega

/-- Texts joined by commas begin as the first of them does. -/
theorem exists_intercalate {texts : List String} (made : texts ≠ []) {first : Char}
    (begins : ∀ text ∈ texts, ∃ more, text.toList = first :: more) :
    ∃ more, (",".intercalate texts).toList = first :: more := by
  cases texts with
  | nil => exact absurd rfl made
  | cons text later =>
      obtain ⟨more, here⟩ := begins text List.mem_cons_self
      cases later with
      | nil =>
          rw [String.intercalate_singleton]
          exact ⟨more, here⟩
      | cons next later =>
          rw [String.intercalate_cons_of_ne_nil (by simp), String.toList_append,
            String.toList_append, here]
          exact ⟨_, rfl⟩

theorem length_le_written (members : List (String × String)) :
    members.length ≤ (",".intercalate (members.map memberText)).toList.length := by
  have made : ∀ text ∈ members.map memberText, 1 ≤ text.toList.length := by
    refine List.forall_mem_map.mpr fun member _ => ?_
    simp only [memberText, String.toList_append, toList_stringText, List.length_append,
      List.length_cons]
    omega
  simpa using length_le_intercalate made

/-- Members begin with the quote of the first key. -/
theorem exists_written {members : List (String × String)} (made : members ≠ []) :
    ∃ more, (",".intercalate (members.map memberText)).toList = '"' :: more := by
  refine exists_intercalate (by simpa using made) (List.forall_mem_map.mpr fun member _ => ?_)
  obtain ⟨key, keyText, -⟩ := readString?_stringText member.1
  rw [memberText, String.toList_append, String.toList_append, keyText]
  exact ⟨_, rfl⟩

theorem readValue?_written (members : List (String × String)) {fuel : Nat}
    (enough : members.length < fuel) (rest : List Char) :
    Tree.readValue? (fuel + 1)
        ('\x7b' :: ((",".intercalate (members.map memberText)).toList ++ '\x7d' :: rest)) =
      some (.object (Tree.ofStrings members), rest) := by
  rw [Tree.readValue?, skipBlanks_cons (by decide)]
  by_cases made : members = []
  · have closing : Tree.isBlank '\x7d' = false := by decide
    rw [made, List.map_nil, String.intercalate_nil, String.toList_empty, List.nil_append]
    simp only [skipBlanks_cons closing]
    rfl
  · obtain ⟨more, begins⟩ := exists_written made
    have quote : Tree.isBlank '"' = false := by decide
    have reads := readMembers?_written made enough rest
    rw [begins, List.cons_append] at reads ⊢
    simp only [skipBlanks_cons quote]
    show Option.map _ (Tree.readMembers? fuel ('"' :: (more ++ '\x7d' :: rest))) = _
    rw [reads]
    rfl

/-- An object with strings under its keys is read back. -/
theorem parse?_objectText (members : List (String × String)) :
    Tree.parse? (objectText (members.map fun member => (member.1, stringText member.2))) =
      some (.object (Tree.ofStrings members)) := by
  have text : (objectText (members.map fun member => (member.1, stringText member.2))).toList =
      '\x7b' :: ((",".intercalate (members.map memberText)).toList ++ ['\x7d']) := by
    rw [objectText, List.map_map, String.toList_append, String.toList_append]
    rfl
  have enough := length_le_written members
  unfold Tree.parse?
  rw [text]
  simp only [List.length_cons, List.length_append]
  rw [readValue?_written members (by omega) []]
  rfl

def Value.ofStrings (members : List (String × String)) : Value :=
  .object (members.map fun member => (member.1, .string member.2))

theorem memberValues?_ofStrings (depth : Nat) (members : List (String × String)) :
    Tree.memberValues? depth (Tree.ofStrings members) =
      some (members.map fun member => (member.1, .string member.2)) := by
  induction members with
  | nil => rfl
  | cons member rest ih =>
      rw [Tree.ofStrings] at ih ⊢
      rw [List.map_cons, Tree.memberValues?, ih]
      rfl

/-- The value of an object with strings under its keys is read back. -/
theorem Value.parse?_objectText (members : List (String × String)) :
    Value.parse? (objectText (members.map fun member => (member.1, stringText member.2))) =
      some (.ofStrings members) := by
  rw [Value.parse?, Json.parse?_objectText]
  show (Tree.value? (126 + 1) _) = _
  rw [Tree.value?, memberValues?_ofStrings]
  rfl

end ChoiceExplorer.Json
