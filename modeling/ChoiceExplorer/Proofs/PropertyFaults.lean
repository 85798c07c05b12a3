import ChoiceExplorer.Proofs.TrimmedTexts

/-!
# What property text gives or reports

A property text that can be read gives keys and values in a normal form.  One that cannot be
read is reported with a line: the one on which the malformed entry begins, however many lines
were joined to it.  What stands before that line can be read on its own.
-/

namespace ChoiceExplorer.Config

structure IsNormalEntry (key value : String) : Prop where
  named : key ≠ ""
  key_trimmed : Text.IsTrimmed key.toList
  key_undivided : '=' ∉ key.toList
  key_on_line : '\n' ∉ key.toList
  value_trimmed : Text.IsTrimmed value.toList
  value_on_line : '\n' ∉ value.toList

instance (key value : String) : Decidable (IsNormalEntry key value) :=
  decidable_of_iff (key ≠ "" ∧ Text.IsTrimmed key.toList ∧ '=' ∉ key.toList ∧
      '\n' ∉ key.toList ∧ Text.IsTrimmed value.toList ∧ '\n' ∉ value.toList)
    ⟨fun ⟨named, trimmed, undivided, onLine, valueTrimmed, valueOnLine⟩ =>
        ⟨named, trimmed, undivided, onLine, valueTrimmed, valueOnLine⟩,
      fun ⟨named, trimmed, undivided, onLine, valueTrimmed, valueOnLine⟩ =>
        ⟨named, trimmed, undivided, onLine, valueTrimmed, valueOnLine⟩⟩

def IsNormal (config : Config) : Prop :=
  ∀ key value, config.get? key = some value → IsNormalEntry key value

/-- A text that is no entry: it has no equals sign, or only blanks before the first one. -/
def IsMalformed (chars : List Char) : Prop :=
  '=' ∉ chars ∨
    ∃ blanks rest, chars = blanks ++ '=' :: rest ∧ ∀ blank ∈ blanks, Text.isBlank blank = true

/-- A line that is neither blank nor a comment. -/
def BeginsEntry (line : List Char) : Prop :=
  ∃ blanks char rest, line = blanks ++ char :: rest ∧
    (∀ blank ∈ blanks, Text.isBlank blank = true) ∧ Text.isBlank char = false ∧
      char ≠ '#' ∧ char ≠ '!'

/-! ## Single entries -/

theorem entry?_eq_none_iff {chars : List Char} : entry? chars = none ↔ IsMalformed chars := by
  have visible : Text.isBlank '=' = false := by decide
  unfold entry?
  cases split : Text.splitOnce '=' chars with
  | none =>
      have undivided := Text.splitOnce_eq_none_iff.mp split
      exact ⟨fun _ => .inl undivided, fun _ => rfl⟩
  | some parts =>
      obtain ⟨key, value⟩ := parts
      obtain ⟨rfl, plain⟩ := Text.splitOnce_eq_some_iff.mp split
      simp only [ite_eq_left_iff, reduceCtorEq, imp_false, not_not, List.isEmpty_iff,
        Text.trim_eq_nil_iff]
      constructor
      · intro blank
        exact .inr ⟨key, value, rfl, blank⟩
      · rintro (undivided | ⟨blanks, rest, parts, blank⟩)
        · exact absurd (List.mem_append_right key List.mem_cons_self) undivided
        · have sameSplit : Text.splitOnce '=' (blanks ++ '=' :: rest) = some (blanks, rest) := by
            refine Text.splitOnce_eq_some_iff.mpr ⟨rfl, fun member => ?_⟩
            rw [blank _ member] at visible
            cases visible
          rw [parts, sameSplit] at split
          cases split
          exact blank

/-- An entry is divided at its first equals sign, and the text before it is not blank. -/
theorem entry?_eq_some_iff {chars : List Char} {key value : String} :
    entry? chars = some (key, value) ↔
      ∃ front back, chars = front ++ '=' :: back ∧ '=' ∉ front ∧ Text.trim front ≠ [] ∧
        String.ofList (Text.trim front) = key ∧ String.ofList (Text.trim back) = value := by
  unfold entry?
  constructor
  · intro entry
    cases split : Text.splitOnce '=' chars with
    | none => rw [split] at entry; cases entry
    | some parts =>
        obtain ⟨front, back⟩ := parts
        obtain ⟨joined, undivided⟩ := Text.splitOnce_eq_some_iff.mp split
        simp only [split, Option.ite_none_left_eq_some, Option.some.injEq, Prod.mk.injEq,
          List.isEmpty_iff] at entry
        obtain ⟨named, isKey, isValue⟩ := entry
        exact ⟨front, back, joined, undivided, named, isKey, isValue⟩
  · rintro ⟨front, back, joined, undivided, named, rfl, rfl⟩
    simp only [Text.splitOnce_eq_some_iff.mpr ⟨joined, undivided⟩, List.isEmpty_iff, named,
      if_false]

theorem isNormalEntry_of_eq_some {chars : List Char} {key value : String}
    (plain : '\n' ∉ chars) (entry : entry? chars = some (key, value)) :
    IsNormalEntry key value := by
  obtain ⟨front, back, rfl, undivided, named, rfl, rfl⟩ := entry?_eq_some_iff.mp entry
  rw [List.mem_append, List.mem_cons, not_or, not_or] at plain
  obtain ⟨plainFront, -, plainBack⟩ := plain
  constructor
  · intro empty
    rw [← String.toList_eq_nil_iff, String.toList_ofList] at empty
    exact named empty
  · rw [String.toList_ofList]
    exact Text.isTrimmed_trim front
  · rw [String.toList_ofList]
    exact fun member => undivided (Text.mem_of_mem_trim member)
  · rw [String.toList_ofList]
    exact fun member => plainFront (Text.mem_of_mem_trim member)
  · rw [String.toList_ofList]
    exact Text.isTrimmed_trim back
  · rw [String.toList_ofList]
    exact fun member => plainBack (Text.mem_of_mem_trim member)

theorem IsNormal.insert {config : Config} (normal : IsNormal config) {key value : String}
    (entry : IsNormalEntry key value) : IsNormal (config.insert key value) := by
  intro asked held found
  rw [Table.get?_insert] at found
  split at found
  · rename_i same
    cases found
    rwa [same]
  · exact normal asked held found

/-- Of the lines between entries those are not skipped on which an entry can begin. -/
theorem beginsEntry_of_not_skipped {line : List Char}
    (kept : isSkipped (Text.trim line) = false) : BeginsEntry line := by
  cases trimmed : Text.trim line with
  | nil => rw [trimmed] at kept; cases kept
  | cons char rest =>
      rw [trimmed, isSkipped, Bool.or_eq_false_iff, beq_eq_false_iff_ne, beq_eq_false_iff_ne] at kept
      have begins : (Text.trim line).head? = some char := by rw [trimmed, List.head?_cons]
      obtain ⟨blanks, later, parts, blank, visible⟩ := Text.exists_of_head?_trim begins
      exact ⟨blanks, char, later, parts, blank, visible, kept⟩

/-! ## Lines read so far -/

/-- An entry that began on one of the lines, behind lines that leave none waiting. -/
structure Begun (done : List (List Char)) (pending : Pending) : Prop where
  one_le : 1 ≤ pending.line
  le_length : pending.line ≤ done.length
  begins : ∀ first ∈ done[pending.line - 1]?, BeginsEntry first
  before : ∃ config, Reading.lines 1 {} (done.take (pending.line - 1)) = .ok ⟨none, config⟩
  plain : '\n' ∉ pending.text

variable {done : List (List Char)} {pending : Pending} {reading : Reading}

theorem Begun.place_lt (begun : Begun done pending) : pending.line - 1 < done.length := by
  have := begun.one_le
  have := begun.le_length
  omega

theorem Begun.append (begun : Begun done pending) (more : List (List Char)) :
    Begun (done ++ more) pending := by
  have inside := begun.place_lt
  refine ⟨begun.one_le, ?_, ?_, ?_, begun.plain⟩
  · rw [List.length_append]
    exact Nat.le_add_right_of_le begun.le_length
  · rw [List.getElem?_append_left inside]
    exact begun.begins
  · rw [List.take_append_of_le_length (Nat.le_of_lt inside)]
    exact begun.before

/-- An entry keeps its first line whatever text it has. -/
theorem Begun.withText (begun : Begun done pending) {text : List Char} (plain : '\n' ∉ text) :
    Begun done { pending with text } :=
  ⟨begun.one_le, begun.le_length, begun.begins, begun.before, plain⟩

/-- What is left behind lines: normal entries are stored, and one may wait that began on them. -/
structure Settled (done : List (List Char)) (reading : Reading) : Prop where
  read : Reading.lines 1 {} done = .ok reading
  normal : IsNormal reading.config
  begun : ∀ pending ∈ reading.waiting, Begun done pending

/-- The error of a malformed entry that began on one of the lines. -/
inductive Reports (done : List (List Char)) : Error → Prop where
  | malformed {pending : Pending} (begun : Begun done pending)
      (malformed : IsMalformed pending.text) :
      Reports done (.malformedLine pending.line (String.ofList pending.text))

inductive Gives {α : Type} (good : α → Prop) (done : List (List Char)) :
    Except Error α → Prop where
  | ok {value : α} (kept : good value) : Gives good done (.ok value)
  | error {error : Error} (reports : Reports done error) : Gives good done (.error error)

theorem Gives.bind {α β : Type} {good : α → Prop} {next : β → Prop} {outcome : Except Error α}
    {go : α → Except Error β} (gives : Gives good done outcome)
    (step : ∀ value, good value → Gives next done (go value)) :
    Gives next done (outcome.bind go) := by
  cases gives with
  | ok kept => exact step _ kept
  | error reports => exact .error reports

theorem Gives.append {α : Type} {good : α → Prop} {outcome : Except Error α}
    (gives : Gives good done outcome) (more : List (List Char)) :
    Gives good (done ++ more) outcome := by
  cases gives with
  | ok kept => exact .ok kept
  | error reports =>
      cases reports with
      | malformed begun malformed => exact .error (.malformed (begun.append more) malformed)

theorem Begun.store (begun : Begun done pending) {config : Config} (normal : IsNormal config) :
    Gives IsNormal done (pending.store config) := by
  unfold Pending.store
  cases entry : entry? pending.text with
  | none => exact .error (.malformed begun (entry?_eq_none_iff.mp entry))
  | some pair =>
      obtain ⟨key, value⟩ := pair
      exact .ok (normal.insert (isNormalEntry_of_eq_some begun.plain entry))

namespace Settled

/-- The entry that a line begins, or that it is joined to, began on that line or before it. -/
theorem joinLine (settled : Settled done reading) {line : List Char} (plain : '\n' ∉ line)
    (joined : joinLine (1 + done.length) reading.waiting (Text.trim line) = some pending) :
    Begun (done ++ [line]) pending := by
  have plainTrimmed : '\n' ∉ Text.trim line := fun member => plain (Text.mem_of_mem_trim member)
  cases waits : reading.waiting with
  | some earlier =>
      rw [waits] at joined
      cases joined
      have begun := settled.begun earlier waits
      apply (begun.append [line]).withText
      rw [List.mem_append, not_or]
      exact ⟨begun.plain, plainTrimmed⟩
  | none =>
      rw [waits, Config.joinLine] at joined
      cases skipped : isSkipped (Text.trim line) with
      | true => rw [skipped] at joined; cases joined
      | false =>
          rw [skipped] at joined
          cases joined
          have place : 1 + done.length - 1 = done.length := by omega
          refine ⟨Nat.le_add_right _ _, ?_, ?_, ?_, plainTrimmed⟩
          · rw [List.length_append, List.length_singleton, Nat.add_comm]
          · intro first member
            rw [place, List.getElem?_concat_length, Option.mem_some_iff] at member
            exact member ▸ beginsEntry_of_not_skipped skipped
          · refine ⟨reading.config, ?_⟩
            rw [place, List.take_left', settled.read, ← waits]
            rfl

theorem read_concat (settled : Settled done reading) {line : List Char} {read : Reading}
    (ended : reading.line (1 + done.length) line = .ok read) :
    Reading.lines 1 {} (done ++ [line]) = .ok read := by
  rw [Reading.lines_append, settled.read]
  show reading.lines (1 + done.length) [line] = .ok read
  rw [Reading.lines, ended]
  rfl

/-- Reading one more line. -/
theorem line (settled : Settled done reading) {line : List Char} (plain : '\n' ∉ line) :
    Gives (Settled (done ++ [line])) (done ++ [line])
      (reading.line (1 + done.length) line) := by
  have ends {read : Reading} (ended : reading.line (1 + done.length) line = .ok read) :=
    settled.read_concat ended
  unfold Reading.line at ends ⊢
  cases joined : Config.joinLine (1 + done.length) reading.waiting (Text.trim line) with
  | none =>
      rw [joined] at ends
      exact .ok ⟨ends rfl, settled.normal, fun _ waits => by cases waits⟩
  | some pending =>
      have begun := settled.joinLine plain joined
      simp only [joined] at ends ⊢
      cases goesOn : pending.continues with
      | true =>
          simp only [goesOn, if_true] at ends ⊢
          refine .ok ⟨ends rfl, settled.normal, fun later waits => ?_⟩
          cases waits
          exact begun.withText fun member => begun.plain ((List.dropLast_sublist _).subset member)
      | false =>
          simp only [goesOn, Bool.false_eq_true, if_false] at ends ⊢
          generalize stored : pending.store reading.config = outcome at ends ⊢
          have gives := stored ▸ begun.store settled.normal
          cases gives with
          | ok normal => exact .ok ⟨ends rfl, normal, fun _ waits => by cases waits⟩
          | error reports => exact .error reports

/-- Reading all further lines. -/
theorem lines (settled : Settled done reading) {rest : List (List Char)}
    (plain : ∀ line ∈ rest, '\n' ∉ line) :
    Gives (Settled (done ++ rest)) (done ++ rest) (reading.lines (1 + done.length) rest) := by
  induction rest generalizing done reading with
  | nil =>
      rw [List.append_nil]
      exact .ok settled
  | cons line rest ih =>
      obtain ⟨here, further⟩ := List.forall_mem_cons.mp plain
      have counted : 1 + done.length + 1 = 1 + (done ++ [line]).length := by
        rw [List.length_append, List.length_singleton, Nat.add_assoc]
      have split : done ++ line :: rest = (done ++ [line]) ++ rest := by simp
      rw [Reading.lines, counted, split]
      exact ((settled.line here).append rest).bind fun _ kept => ih kept further

theorem close (settled : Settled done reading) : Gives IsNormal done reading.close := by
  unfold Reading.close
  cases waits : reading.waiting with
  | none => exact .ok settled.normal
  | some pending => exact (settled.begun pending waits).store settled.normal

end Settled

theorem settled_nil : Settled [] {} :=
  ⟨rfl, fun _ _ found => (by cases found), fun _ waits => by cases waits⟩

/-- Reading a whole text. -/
theorem gives_ofProperties (text : String) :
    Gives IsNormal (Text.lines text.toList) (ofProperties text) := by
  rw [ofProperties_eq]
  have read := settled_nil.lines fun line (member : line ∈ Text.lines text.toList) =>
    Text.feed_not_mem_lines member
  rw [List.nil_append] at read
  exact read.bind fun _ settled => settled.close

/-! ## The line that is reported -/

/-- What the error about a property text that cannot be read tells of the text. -/
structure Faulty (text : String) (line : Nat) (reported : String) : Prop where
  one_le : 1 ≤ line
  le_length : line ≤ (Text.lines text.toList).length
  begins : ∃ first, (Text.lines text.toList)[line - 1]? = some first ∧ BeginsEntry first
  before : ∃ config,
    ofProperties (String.ofList (Text.firstLines (line - 1) text.toList)) = .ok config
  malformed : IsMalformed reported.toList

/-- The lines before the one on which an entry begins can be read on their own. -/
theorem faulty_of_begun {text : String} (begun : Begun (Text.lines text.toList) pending)
    (malformed : IsMalformed pending.text) :
    Faulty text pending.line (String.ofList pending.text) := by
  obtain ⟨config, before⟩ := begun.before
  refine ⟨begun.one_le, begun.le_length, ?_, ⟨config, ?_⟩, ?_⟩
  · have found := List.getElem?_eq_getElem begun.place_lt
    exact ⟨_, found, begun.begins _ found⟩
  · rw [ofProperties_eq, String.toList_ofList, Text.lines_firstLines, before]
    rfl
  · rwa [String.toList_ofList]

/--
A property text gives entries in normal form, or reports the line on which a malformed
entry begins.
-/
theorem reads_or_reports_the_line (text : String) :
    (∃ config, ofProperties text = .ok config ∧ IsNormal config) ∨
      ∃ line reported, ofProperties text = .error (.malformedLine line reported) ∧
        Faulty text line reported := by
  cases outcome : ofProperties text with
  | ok config =>
      have gives := outcome ▸ gives_ofProperties text
      cases gives with
      | ok normal => exact .inl ⟨config, rfl, normal⟩
  | error error =>
      have gives := outcome ▸ gives_ofProperties text
      cases gives with
      | error reports =>
          cases reports with
          | malformed begun malformed =>
              exact .inr ⟨_, _, rfl, faulty_of_begun begun malformed⟩

example : ofProperties "a=1\nb\\\n# c\nd=2\n" = .error (.malformedLine 2 "b# c") := by rfl

end ChoiceExplorer.Config
