import ChoiceExplorer.Proofs.JsonReadBack

/-!
# Reading back written arrays

An array of strings that is written as JSON is read back as it was, and so is an object with
one member.
-/

namespace ChoiceExplorer.Json

def Tree.strings (texts : List String) : List Tree := texts.map fun text => .string (some text)

theorem skipBlanks_bracket (rest : List Char) : Tree.skipBlanks (']' :: rest) = ']' :: rest :=
  skipBlanks_cons (by decide) rest

theorem skipBlanks_comma (rest : List Char) : Tree.skipBlanks (',' :: rest) = ',' :: rest :=
  skipBlanks_cons (by decide) rest

/-- Strings divided by commas are read up to the closing bracket. -/
theorem readItems?_written {texts : List String} (made : texts ≠ []) {fuel : Nat}
    (enough : texts.length < fuel) (rest : List Char) :
    Tree.readItems? fuel ((",".intercalate (texts.map stringText)).toList ++ ']' :: rest) =
      some (Tree.strings texts, rest) := by
  induction texts generalizing fuel with
  | nil => exact absurd rfl made
  | cons text later ih =>
      rw [List.length_cons] at enough
      obtain ⟨left, rfl⟩ : ∃ left, fuel = left + 2 := ⟨fuel - 2, by omega⟩
      cases later with
      | nil =>
          rw [List.map_singleton, String.intercalate_singleton, Tree.readItems?]
          simp only [readValue?_stringText, Option.bind_eq_bind, Option.bind_some,
            skipBlanks_bracket]
          rfl
      | cons next later =>
          have further := ih (List.cons_ne_nil next later) (Nat.lt_of_succ_lt_succ enough)
          rw [List.map_cons, String.intercalate_cons_of_ne_nil (by simp), String.toList_append,
            String.toList_append, List.append_assoc, List.append_assoc, Tree.readItems?]
          have comma : ",".toList = [','] := by decide
          simp only [readValue?_stringText, Option.bind_eq_bind, Option.bind_some, comma,
            List.singleton_append, skipBlanks_comma, further]
          rfl

/-- Strings begin with the quote of the first one. -/
theorem exists_writtenItems {texts : List String} (made : texts ≠ []) :
    ∃ more, (",".intercalate (texts.map stringText)).toList = '"' :: more := by
  refine exists_intercalate (by simpa using made) (List.forall_mem_map.mpr fun text _ => ?_)
  exact ⟨_, toList_stringText text⟩

theorem readValue?_arrayText (texts : List String) {fuel : Nat} (enough : texts.length < fuel)
    (rest : List Char) :
    Tree.readValue? (fuel + 1) ((arrayText (texts.map stringText)).toList ++ rest) =
      some (.array (Tree.strings texts), rest) := by
  have written : (arrayText (texts.map stringText)).toList ++ rest =
      '[' :: ((",".intercalate (texts.map stringText)).toList ++ ']' :: rest) := by
    simp [arrayText]
  rw [written, Tree.readValue?, skipBlanks_cons (by decide)]
  by_cases made : texts = []
  · rw [made, List.map_nil, String.intercalate_nil, String.toList_empty, List.nil_append]
    simp only [skipBlanks_bracket]
    rfl
  · obtain ⟨more, begins⟩ := exists_writtenItems made
    have quote : Tree.isBlank '"' = false := by decide
    have reads := readItems?_written made enough rest
    rw [begins, List.cons_append] at reads ⊢
    simp only [skipBlanks_cons quote]
    show Option.map _ (Tree.readItems? fuel ('"' :: (more ++ ']' :: rest))) = _
    rw [reads]
    rfl

theorem length_le_arrayText (texts : List String) :
    texts.length + 2 ≤ (arrayText (texts.map stringText)).toList.length := by
  have made : ∀ text ∈ texts.map stringText, 1 ≤ text.toList.length := by
    refine List.forall_mem_map.mpr fun text _ => ?_
    rw [toList_stringText, List.length_cons]
    omega
  have counted := length_le_intercalate made
  rw [List.length_map] at counted
  have brackets : "[".toList.length + "]".toList.length = 2 := by decide
  rw [arrayText, String.toList_append, String.toList_append, List.length_append, List.length_append]
  omega

/-- An object with one member is read back if the member's value is. -/
theorem parse?_member {key value : String} {tree : Tree}
    (reads : ∀ fuel rest, value.toList.length ≤ fuel →
      Tree.readValue? fuel (value.toList ++ rest) = some (tree, rest)) :
    Tree.parse? (objectText [(key, value)]) = some (.object [(some key, tree)]) := by
  obtain ⟨body, keyText, readKey⟩ := readString?_stringText key
  have text : (objectText [(key, value)]).toList =
      '\x7b' :: '"' :: (body ++ ':' :: (value.toList ++ ['\x7d'])) := by
    simp [objectText, keyText]
  have quote : Tree.isBlank '"' = false := by decide
  have closing : Tree.skipBlanks ['\x7d'] = ['\x7d'] := skipBlanks_cons (by decide) []
  have readMember (fuel : Nat) (enough : value.toList.length ≤ fuel) :
      Tree.readMembers? (fuel + 1) ('"' :: (body ++ ':' :: (value.toList ++ ['\x7d']))) =
        some ([(some key, tree)], []) := by
    rw [Tree.readMembers?, skipBlanks_cons quote]
    simp only [readKey, Option.bind_eq_bind, Option.bind_some, skipBlanks_colon,
      reads fuel _ enough, closing]
  have readObject (fuel : Nat) (enough : value.toList.length ≤ fuel) :
      Tree.readValue? (fuel + 2)
          ('\x7b' :: '"' :: (body ++ ':' :: (value.toList ++ ['\x7d']))) =
        some (.object [(some key, tree)], []) := by
    rw [Tree.readValue?, skipBlanks_cons (by decide)]
    simp only [skipBlanks_cons quote]
    show Option.map _ (Tree.readMembers? (fuel + 1) _) = _
    rw [readMember fuel enough]
    rfl
  have enough : value.toList.length ≤ 2 * (objectText [(key, value)]).toList.length := by
    rw [text]
    simp only [List.length_cons, List.length_append]
    omega
  rw [text] at enough
  simp only [Tree.parse?, text, readObject _ enough]
  rfl

theorem values?_strings (depth : Nat) (texts : List String) :
    Tree.values? depth (Tree.strings texts) = some (texts.map .string) := by
  induction texts with
  | nil => rfl
  | cons text rest ih =>
      rw [Tree.strings] at ih ⊢
      rw [List.map_cons, Tree.values?, ih]
      rfl

/-- An object with an array of strings as its only member is read back. -/
theorem Value.parse?_arrayText (key : String) (texts : List String) :
    Value.parse? (objectText [(key, arrayText (texts.map stringText))]) =
      some (.object [(key, .array (texts.map .string))]) := by
  have reads (fuel : Nat) (rest : List Char)
      (enough : (arrayText (texts.map stringText)).toList.length ≤ fuel) :
      Tree.readValue? fuel ((arrayText (texts.map stringText)).toList ++ rest) =
        some (.array (Tree.strings texts), rest) := by
    have counted := length_le_arrayText texts
    obtain ⟨left, rfl⟩ : ∃ left, fuel = left + 1 := ⟨fuel - 1, by omega⟩
    exact readValue?_arrayText texts (by omega) rest
  have items : Tree.value? (125 + 1) (.array (Tree.strings texts)) =
      some (.array (texts.map .string)) := by
    rw [Tree.value?, values?_strings]
    rfl
  rw [Value.parse?, parse?_member reads]
  show Tree.value? (126 + 1) _ = _
  rw [Tree.value?, Tree.memberValues?, items]
  rfl

end ChoiceExplorer.Json
