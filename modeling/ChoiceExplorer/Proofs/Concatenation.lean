import ChoiceExplorer.Proofs.PropertyLines

/-!
# Concatenated property texts

A text that ends with a line feed and whose last line has no trailing backslash should be
read apart from what is written behind it.  It is, except when the last line is blank and
joined to an entry that still ends in a backslash: the joined text is what is tested, so
that the entry goes on waiting and takes the line behind it.
-/

namespace ChoiceExplorer.Config

/-- Two texts are read one behind the other as they are read apart. -/
structure Distributes (first second : String) : Prop where
  succeeds :
    (∃ config, ofProperties (first ++ second) = .ok config) ↔
      (∃ base, ofProperties first = .ok base) ∧ ∃ above, ofProperties second = .ok above
  overridden : ∀ {base above config}, ofProperties first = .ok base →
    ofProperties second = .ok above → ofProperties (first ++ second) = .ok config →
      Overridden base above config
  fails : ∀ {error}, ofProperties first = .error error →
    ofProperties (first ++ second) = .error error
  moves : ∀ {base line text}, ofProperties first = .ok base →
    ofProperties second = .error (.malformedLine line text) →
      ofProperties (first ++ second) =
        .error (.malformedLine (line + (Text.lines first.toList).length) text)

/-- The last line is blank, and the entry it is joined to still ends in a backslash. -/
def LeavesOpen (text : String) : Prop :=
  ∃ before blank pending config, Text.lines text.toList = before ++ [blank] ∧
    Text.trim blank = [] ∧ Reading.lines 1 {} before = .ok ⟨some pending, config⟩ ∧
      pending.continues = true

/-! ## Texts that leave no entry open -/

/-- A line that has text ends an entry unless it ends in a backslash itself. -/
theorem Pending.continues_append (pending : Pending) {line : List Char} (text : line ≠ [])
    (plain : line.getLast? ≠ some '\\') :
    Pending.continues { pending with text := pending.text ++ line } = false := by
  unfold Pending.continues
  rw [List.getLast?_append, List.getLast?_eq_some_getLast text, Option.some_or,
    ← List.getLast?_eq_some_getLast text]
  exact beq_eq_false_iff_ne.mpr plain

/-- Behind an entry that is stored at once nothing waits. -/
theorem waiting_of_stored {pending : Pending} {config : Config} {read : Reading}
    (stored : (pending.store config).map (fun config => (⟨none, config⟩ : Reading)) = .ok read) :
    read.waiting = none := by
  cases kept : pending.store config with
  | error error => rw [kept] at stored; cases stored
  | ok config => rw [kept] at stored; cases stored; rfl

theorem Reading.waiting_of_line {number : Nat} {reading read : Reading} {last : List Char}
    (plain : (Text.trim last).getLast? ≠ some '\\')
    (closes : Text.trim last = [] → ∀ pending ∈ reading.waiting, pending.continues = false)
    (ended : reading.line number last = .ok read) : read.waiting = none := by
  unfold Reading.line at ended
  cases waits : reading.waiting with
  | none =>
      rw [waits, joinLine] at ended
      cases skipped : isSkipped (Text.trim last) with
      | true => rw [skipped] at ended; cases ended; rfl
      | false =>
          have whole : Pending.continues ⟨number, Text.trim last⟩ = false :=
            beq_eq_false_iff_ne.mpr plain
          simp only [skipped, Bool.false_eq_true, if_false, whole] at ended
          exact waiting_of_stored ended
  | some pending =>
      rw [waits, joinLine] at ended
      have whole : Pending.continues { pending with text := pending.text ++ Text.trim last } =
          false := by
        by_cases blank : Text.trim last = []
        · rw [blank, List.append_nil]
          exact closes blank pending (by rw [waits]; exact rfl)
        · exact pending.continues_append blank plain
      simp only [whole, Bool.false_eq_true, if_false] at ended
      exact waiting_of_stored ended

theorem waiting_of_closed {first : String} {before : List (List Char)} {last : List Char}
    (split : Text.lines first.toList = before ++ [last])
    (plain : (Text.trim last).getLast? ≠ some '\\') (closed : ¬LeavesOpen first) {read : Reading}
    (ended : Reading.lines 1 {} (Text.lines first.toList) = .ok read) : read.waiting = none := by
  rw [split, Reading.lines_append] at ended
  cases earlier : Reading.lines 1 {} before with
  | error error => rw [earlier] at ended; cases ended
  | ok reading =>
      rw [earlier] at ended
      have final : reading.line (1 + before.length) last = .ok read := by
        cases ends : reading.line (1 + before.length) last with
        | error error => simp [Except.bind, Reading.lines, ends] at ended
        | ok other => simpa [Except.bind, Reading.lines, ends] using ended
      refine Reading.waiting_of_line plain (fun blank pending waits => ?_) final
      refine Bool.eq_false_iff.mpr fun continues => closed ?_
      refine ⟨before, last, pending, reading.config, split, blank, ?_, continues⟩
      rw [earlier, ← Option.mem_def.mp waits]

/-- The second text may be read onto the entries of the first. -/
theorem distributes_of_moved {first second : String} {base : Config}
    (stored : ofProperties first = .ok base)
    (moved : Moved (Text.lines first.toList).length (Overridden base)
      (ofProperties second) (ofProperties (first ++ second))) : Distributes first second := by
  generalize alone : ofProperties second = outcome at moved
  generalize whole : ofProperties (first ++ second) = both at moved
  cases moved with
  | ok kept =>
      exact {
        succeeds := by simp [stored, alone, whole]
        overridden := fun isBase isOver isWhole => by
          cases stored.symm.trans isBase
          cases alone.symm.trans isOver
          cases whole.symm.trans isWhole
          exact kept
        fails := fun failed => by cases stored.symm.trans failed
        moves := fun _ failed => by cases alone.symm.trans failed }
  | error error =>
      exact {
        succeeds := by simp [alone, whole]
        overridden := fun _ isOver => by cases alone.symm.trans isOver
        fails := fun failed => by cases stored.symm.trans failed
        moves := fun _ failed => by
          cases alone.symm.trans failed
          exact whole }

/-- What is read behind a text that leaves no entry waiting is read onto its entries. -/
theorem distributes_of_waiting {first : String} (ends : first.toList.getLast? = some '\n')
    (closed : ∀ read, Reading.lines 1 {} (Text.lines first.toList) = .ok read →
      read.waiting = none)
    (second : String) : Distributes first second := by
  have whole := ofProperties_append ends second
  have alone := ofProperties_eq first
  cases read : Reading.lines 1 {} (Text.lines first.toList) with
  | error error =>
      rw [read] at whole alone
      exact {
        succeeds := by simp [whole, alone, Except.bind]
        overridden := fun stored => by rw [alone] at stored; cases stored
        fails := fun failed => whole.trans (alone.symm.trans failed)
        moves := fun stored => by rw [alone] at stored; cases stored }
  | ok reading =>
      obtain ⟨waiting, base⟩ := reading
      obtain rfl : waiting = none := closed _ read
      rw [read] at whole alone
      have stored : ofProperties first = .ok base := alone
      have moved : Moved (Text.lines first.toList).length (Overridden base)
          (ofProperties second) (ofProperties (first ++ second)) :=
        whole ▸ ofProperties_onto base _ second
      exact distributes_of_moved stored moved

/-! ## Texts that leave an entry open -/

/-- Behind a text that ends in a visible character trimming leaves more than before it. -/
theorem length_trim_lt (chars : List Char) {char : Char} (visible : Text.isBlank char = false) :
    (Text.trim chars).length < (Text.trim (chars ++ [char])).length := by
  have shorter : (Text.trim chars).length ≤ (chars.dropWhile Text.isBlank).length := by
    rw [Text.trim, List.length_reverse]
    exact Nat.le_trans (List.dropWhile_sublist _).length_le (Nat.le_of_eq List.length_reverse)
  have kept : Text.trim (chars ++ [char]) = chars.dropWhile Text.isBlank ++ [char] := by
    have front : (chars ++ [char]).dropWhile Text.isBlank =
        chars.dropWhile Text.isBlank ++ [char] := by
      rw [List.dropWhile_append]
      split
      · rename_i empty
        rw [List.isEmpty_iff.mp empty]
        simp [List.dropWhile, visible]
      · rfl
    rw [Text.trim, front, List.reverse_append, List.reverse_singleton, List.singleton_append,
      List.dropWhile_cons_of_neg (by simp [visible]), List.reverse_cons, List.reverse_reverse]
  rw [kept, List.length_append, List.length_singleton]
  omega

/-- What stands behind the first separator may go on. -/
theorem splitOnce_append {separator : Char} {chars key rest : List Char}
    (split : Text.splitOnce separator chars = some (key, rest)) (more : List Char) :
    Text.splitOnce separator (chars ++ more) = some (key, rest ++ more) := by
  unfold Text.splitOnce at split ⊢
  cases found : chars.dropWhile (· != separator) with
  | nil => rw [found] at split; cases split
  | cons first left =>
      rw [found] at split
      cases split
      have before : (chars.takeWhile (· != separator)).length ≠ chars.length := by
        have parts := congrArg List.length (List.takeWhile_append_dropWhile
          (p := (· != separator)) (l := chars))
        rw [found, List.length_append, List.length_cons] at parts
        omega
      rw [List.dropWhile_append, List.takeWhile_append, if_neg before, found]
      rfl

/-- A visible character behind an entry becomes part of its value. -/
theorem entry?_concat {chars : List Char} {key value : String} {char : Char}
    (visible : Text.isBlank char = false) (entry : entry? chars = some (key, value)) :
    ∃ longer, entry? (chars ++ [char]) = some (key, longer) ∧ longer ≠ value := by
  unfold entry? at entry ⊢
  cases split : Text.splitOnce '=' chars with
  | none => rw [split] at entry; cases entry
  | some parts =>
      obtain ⟨front, rest⟩ := parts
      rw [splitOnce_append split]
      simp only [split] at entry ⊢
      cases named : (Text.trim front).isEmpty with
      | true => simp [named] at entry
      | false =>
          simp only [named, Bool.false_eq_true, if_false, Option.some.injEq,
            Prod.mk.injEq] at entry ⊢
          obtain ⟨isKey, rfl⟩ := entry
          refine ⟨_, ⟨isKey, rfl⟩, fun same => ?_⟩
          have longer := length_trim_lt rest visible
          rw [String.ofList_injective same] at longer
          exact Nat.lt_irrefl _ longer

/-- An entry that still ends in a backslash goes on waiting behind a blank line. -/
theorem Reading.line_blank {number : Nat} {pending : Pending} {config : Config}
    {blank : List Char} (isBlank : Text.trim blank = []) (continues : pending.continues = true) :
    Reading.line number ⟨some pending, config⟩ blank =
      .ok ⟨some { pending with text := pending.text.dropLast }, config⟩ := by
  simp [Reading.line, joinLine, isBlank, continues]

/-- A waiting entry takes a comment as it takes any line, and ends there. -/
theorem Reading.line_comment (number : Nat) (pending : Pending) (config : Config) :
    Reading.line number ⟨some pending, config⟩ ['#'] =
      (Pending.store { pending with text := pending.text ++ ['#'] } config).map
        fun config => ⟨none, config⟩ := by
  have comment : Text.trim ['#'] = ['#'] := rfl
  have ended : Pending.continues { pending with text := pending.text ++ ['#'] } = false :=
    pending.continues_append (List.cons_ne_nil _ _) (by decide)
  simp only [Reading.line, joinLine, comment, ended, Bool.false_eq_true, if_false]

/-- An entry left open is stored with the comment that stands behind it. -/
theorem ofProperties_of_leavesOpen {first : String} (ends : first.toList.getLast? = some '\n')
    (leavesOpen : LeavesOpen first) :
    ∃ (pending : Pending) (config : Config), ofProperties first = pending.store config ∧
      ofProperties (first ++ "#") =
        Pending.store { pending with text := pending.text ++ ['#'] } config := by
  obtain ⟨before, blank, pending, config, split, isBlank, earlier, continues⟩ := leavesOpen
  have read : Reading.lines 1 {} (Text.lines first.toList) =
      .ok ⟨some { pending with text := pending.text.dropLast }, config⟩ := by
    rw [split, Reading.lines_append, earlier]
    simp only [Except.bind, Reading.lines, Reading.line_blank isBlank continues]
  have comment : Text.lines "#".toList = [['#']] := rfl
  refine ⟨{ pending with text := pending.text.dropLast }, config, ?_, ?_⟩
  · rw [ofProperties_eq, read]
    rfl
  · rw [ofProperties_append ends, read, comment]
    simp only [Except.bind, Reading.lines, Reading.line_comment]
    cases Pending.store _ config <;> rfl

/-- The comment is read as nothing alone, and yet it changes what is read. -/
theorem not_distributes_of_leavesOpen {first : String}
    (ends : first.toList.getLast? = some '\n') (leavesOpen : LeavesOpen first) :
    ¬Distributes first "#" := by
  intro distributes
  obtain ⟨pending, config, alone, whole⟩ := ofProperties_of_leavesOpen ends leavesOpen
  have comment : ofProperties "#" = .ok .empty := rfl
  unfold Pending.store at alone whole
  cases entry : entry? pending.text with
  | none =>
      rw [entry] at alone
      have same := whole.symm.trans (distributes.fails alone)
      cases joined : entry? (pending.text ++ ['#']) with
      | none =>
          simp only [joined, Except.error.injEq, Error.malformedLine.injEq] at same
          simpa using String.ofList_injective same.2
      | some pair => simp [joined] at same
  | some pair =>
      obtain ⟨key, value⟩ := pair
      obtain ⟨longer, joined, other⟩ :=
        entry?_concat (show Text.isBlank '#' = false by decide) entry
      simp only [entry] at alone
      simp only [joined] at whole
      have kept := distributes.overridden alone comment whole key
      rw [Table.get?_insert, Table.get?_insert, if_pos rfl, if_pos rfl] at kept
      exact other (Option.some.inj kept)

/--
Exactly the texts that leave no entry open are read apart from whatever is written behind
them.
-/
theorem distributes_iff {first : String} (ends : first.toList.getLast? = some '\n')
    (plain : ∀ last ∈ (Text.lines first.toList).getLast?,
      (Text.trim last).getLast? ≠ some '\\') :
    (∀ second, Distributes first second) ↔ ¬LeavesOpen first := by
  constructor
  · intro distributes leavesOpen
    exact not_distributes_of_leavesOpen ends leavesOpen (distributes "#")
  · intro closed second
    have made : Text.lines first.toList ≠ [] :=
      Text.lines_ne_nil fun empty => by rw [empty] at ends; cases ends
    have split := (List.dropLast_concat_getLast made).symm
    have plainLast := plain _ (List.getLast?_eq_some_getLast made)
    exact distributes_of_waiting ends
      (fun read ended => waiting_of_closed split plainLast closed ended) second

def openText : String := "a=x\\\\\n\n"

/-- The text of one entry without a backslash is read apart, the one left open is not. -/
theorem plain_entry_distributes :
    (∀ second, Distributes "a=x\n" second) ∧ ¬∀ second, Distributes openText second := by
  have closed : ¬LeavesOpen "a=x\n" := by
    rintro ⟨before, blank, pending, config, split, isBlank, -, -⟩
    have lone : Text.lines "a=x\n".toList = [] ++ ["a=x".toList] := by decide +kernel
    have last : blank = "a=x".toList := by
      simpa using (List.append_inj' (split.symm.trans lone) rfl).2
    rw [last] at isBlank
    exact absurd isBlank (by decide +kernel)
  have leavesOpen : LeavesOpen openText :=
    ⟨["a=x\\\\".toList], [], ⟨1, "a=x\\".toList⟩, .empty, by decide +kernel, rfl, rfl, rfl⟩
  have plain : ∀ last ∈ (Text.lines "a=x\n".toList).getLast?,
      (Text.trim last).getLast? ≠ some '\\' := by decide +kernel
  have plainOpen : ∀ last ∈ (Text.lines openText.toList).getLast?,
      (Text.trim last).getLast? ≠ some '\\' := by decide +kernel
  exact ⟨(distributes_iff (by decide +kernel) plain).mpr closed,
    fun all => (distributes_iff (by decide +kernel) plainOpen).mp all leavesOpen⟩

/-- The blank line does not end the entry, which takes the next one as part of its value. -/
theorem open_entry_takes_the_next :
    openText.toList.getLast? = some '\n' ∧
      (∀ last ∈ (Text.lines openText.toList).getLast?,
        (Text.trim last).getLast? ≠ some '\\') ∧
      ofProperties openText = .ok (.ofList [("a", "x")]) ∧
      ofProperties "b=1\n" = .ok (.ofList [("b", "1")]) ∧
      ofProperties (openText ++ "b=1\n") = .ok (.ofList [("a", "xb=1")]) ∧
      ¬Distributes openText "b=1\n" := by
  have base : ofProperties openText = .ok (.ofList [("a", "x")]) := by rfl
  have above : ofProperties "b=1\n" = .ok (.ofList [("b", "1")]) := by rfl
  have whole : ofProperties (openText ++ "b=1\n") = .ok (.ofList [("a", "xb=1")]) := by rfl
  refine ⟨by decide +kernel, by decide +kernel, base, above, whole, fun distributes => ?_⟩
  have taken := distributes.overridden base above whole "a"
  exact absurd taken (by decide +kernel)

end ChoiceExplorer.Config
