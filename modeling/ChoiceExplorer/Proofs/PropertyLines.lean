import ChoiceExplorer.Config.Properties

/-!
# Reading property lines

Property text is read line by line.  After each line there is an entry that waits for the
next one, or none, and what has been stored.  Nothing else passes from line to line, so
that lines read in two parts are read as if they were one text.
-/

namespace ChoiceExplorer

namespace Text

/-- A text has lines unless it is empty. -/
theorem lines_ne_nil {chars : List Char} (made : chars ≠ []) : lines chars ≠ [] := by
  fun_cases lines chars with
  | case1 => exact absurd rfl made
  | case2 => exact List.cons_ne_nil _ _
  | case3 => exact List.cons_ne_nil _ _
  | case4 => exact List.cons_ne_nil _ _
  | case5 => exact List.cons_ne_nil _ _

/-- Behind a line feed the lines begin anew. -/
theorem lines_append {first : List Char} (ends : first.getLast? = some '\n')
    (second : List Char) : lines (first ++ second) = lines first ++ lines second := by
  fun_induction lines first with
  | case1 => cases ends
  | case2 rest ih =>
      rw [List.cons_append, lines]
      cases rest with
      | nil => rfl
      | cons char rest => rw [ih (by simpa using ends)]; rfl
  | case3 rest ih =>
      rw [List.cons_append, List.cons_append, lines]
      cases rest with
      | nil => rfl
      | cons char rest => rw [ih (by simpa using ends)]; rfl
  | case4 char rest notFeed notPair empty ih =>
      cases rest with
      | nil => exact absurd (by simpa using ends) notFeed
      | cons next rest => exact absurd empty (lines_ne_nil (List.cons_ne_nil _ _))
  | case5 char rest notFeed notPair line later split ih =>
      cases rest with
      | nil => cases split
      | cons next rest =>
          have joined := ih (by simpa using ends)
          rw [split] at joined
          rw [List.cons_append, lines, joined]
          · rfl
          · exact notFeed
          · intro more carriage pair
            exact notPair rest carriage (by rw [(List.cons.inj pair).1])

end Text

namespace Config

/-- What is left after some lines: the entry that waits for the next one, and what is stored. -/
structure Reading where
  waiting : Option Pending := none
  config : Config := .empty

namespace Reading

def line (number : Nat) (reading : Reading) (line : List Char) : Except Error Reading :=
  match joinLine number reading.waiting (Text.trim line) with
  | none => .ok ⟨none, reading.config⟩
  | some pending =>
      if pending.continues then
        .ok ⟨some { pending with text := pending.text.dropLast }, reading.config⟩
      else (pending.store reading.config).map fun config => ⟨none, config⟩

def lines (number : Nat) (reading : Reading) : List (List Char) → Except Error Reading
  | [] => .ok reading
  | line :: rest => (reading.line number line).bind fun read => read.lines (number + 1) rest

/-- Behind the last line an entry waits no longer. -/
def close (reading : Reading) : Except Error Config :=
  match reading.waiting with
  | none => .ok reading.config
  | some pending => pending.store reading.config

/-- Lines in two parts are read one part after the other. -/
theorem lines_append (number : Nat) (reading : Reading) (first second : List (List Char)) :
    reading.lines number (first ++ second) =
      (reading.lines number first).bind fun read => read.lines (number + first.length) second := by
  induction first generalizing number reading with
  | nil => rfl
  | cons line rest ih =>
      rw [List.cons_append, lines, lines]
      cases reading.line number line with
      | error error => rfl
      | ok read =>
          have counted : number + (line :: rest).length = number + 1 + rest.length := by
            rw [List.length_cons]
            omega
          rw [counted]
          exact ih (number + 1) read

end Reading

theorem readLines_eq (number : Nat) (waiting : Option Pending) (config : Config)
    (lines : List (List Char)) :
    readLines number waiting config lines =
      (Reading.lines number ⟨waiting, config⟩ lines).bind Reading.close := by
  induction lines generalizing number waiting config with
  | nil => cases waiting <;> rfl
  | cons line rest ih =>
      rw [readLines, Reading.lines, Reading.line]
      cases joinLine number waiting (Text.trim line) with
      | none => exact ih (number + 1) none config
      | some pending =>
          cases goesOn : pending.continues with
          | true =>
              simp only [goesOn, if_true]
              exact ih (number + 1) _ config
          | false =>
              simp only [goesOn, Bool.false_eq_true, if_false]
              cases pending.store config with
              | error error => rfl
              | ok config => exact ih (number + 1) none config

/-- The configuration of a text is what is left behind its last line. -/
theorem ofProperties_eq (text : String) :
    ofProperties text = (Reading.lines 1 {} (Text.lines text.toList)).bind Reading.close :=
  readLines_eq 1 none .empty _

/-- The second text is read on from where the first ends. -/
theorem ofProperties_append {first : String} (ends : first.toList.getLast? = some '\n')
    (second : String) :
    ofProperties (first ++ second) =
      (Reading.lines 1 {} (Text.lines first.toList)).bind fun read =>
        (read.lines (1 + (Text.lines first.toList).length) (Text.lines second.toList)).bind
          Reading.close := by
  rw [ofProperties_eq, String.toList_append, Text.lines_append ends, Reading.lines_append]
  cases Reading.lines 1 {} (Text.lines first.toList) <;> rfl

/-! ## Lines further down -/

def Pending.moved (shift : Nat) (pending : Pending) : Pending :=
  { pending with line := pending.line + shift }

def Error.moved (shift : Nat) : Error → Error
  | malformedLine line text => malformedLine (line + shift) text
  | other => other

/-- Outcomes that are related, or the same failure a number of lines further down. -/
inductive Moved (shift : Nat) {α β : Type} (related : α → β → Prop) :
    Except Error α → Except Error β → Prop where
  | ok {value : α} {other : β} (kept : related value other) :
      Moved shift related (.ok value) (.ok other)
  | error (error : Error) : Moved shift related (.error error) (.error (error.moved shift))

theorem Moved.bind {shift : Nat} {α β γ δ : Type} {related : α → β → Prop} {next : γ → δ → Prop}
    {first : Except Error α} {other : Except Error β} {go : α → Except Error γ}
    {goOther : β → Except Error δ} (moved : Moved shift related first other)
    (step : ∀ value value', related value value' → Moved shift next (go value) (goOther value')) :
    Moved shift next (first.bind go) (other.bind goOther) := by
  cases moved with
  | ok kept => exact step _ _ kept
  | error error => exact .error error

def Overridden (base above config : Config) : Prop :=
  ∀ key, config.get? key = (above.get? key).or (base.get? key)

theorem overridden_empty (base : Config) : Overridden base .empty base := fun _ => rfl

theorem Overridden.insert {base above config : Config} (overridden : Overridden base above config)
    (key value : String) : Overridden base (above.insert key value) (config.insert key value) := by
  intro asked
  rw [Table.get?_insert, Table.get?_insert, overridden asked]
  split <;> rfl

theorem Pending.store_moved {base above config : Config} (shift : Nat) (pending : Pending)
    (overridden : Overridden base above config) :
    Moved shift (Overridden base) (pending.store above) ((pending.moved shift).store config) := by
  unfold store moved
  cases entry? pending.text with
  | none => exact .error _
  | some entry => exact .ok (overridden.insert _ _)

namespace Reading

/-- A reading of the same lines further down, begun on entries that were stored before. -/
structure Onto (base : Config) (shift : Nat) (reading later : Reading) : Prop where
  waiting : later.waiting = reading.waiting.map (Pending.moved shift)
  config : Overridden base reading.config later.config

theorem joinLine_moved (number shift : Nat) (waiting : Option Pending) (line : List Char) :
    joinLine (number + shift) (waiting.map (Pending.moved shift)) line =
      (joinLine number waiting line).map (Pending.moved shift) := by
  cases waiting with
  | some pending => rfl
  | none =>
      unfold joinLine
      rw [Option.map_none]
      cases isSkipped line <;> rfl

variable {base : Config} {shift : Nat} {reading later : Reading}

theorem Onto.line (onto : Onto base shift reading later) (number : Nat) (text : List Char) :
    Moved shift (Onto base shift) (reading.line number text)
      (later.line (number + shift) text) := by
  unfold Reading.line
  rw [onto.waiting, joinLine_moved]
  cases joinLine number reading.waiting (Text.trim text) with
  | none => exact .ok ⟨rfl, onto.config⟩
  | some pending =>
      have same : (pending.moved shift).continues = pending.continues := rfl
      simp only [Option.map_some, same]
      cases pending.continues with
      | true => exact .ok ⟨rfl, onto.config⟩
      | false => exact (pending.store_moved shift onto.config).bind fun _ _ kept => .ok ⟨rfl, kept⟩

theorem Onto.lines (onto : Onto base shift reading later) (number : Nat)
    (texts : List (List Char)) :
    Moved shift (Onto base shift) (reading.lines number texts)
      (later.lines (number + shift) texts) := by
  induction texts generalizing number reading later with
  | nil => exact .ok onto
  | cons text rest ih =>
      refine (onto.line number text).bind fun read read' kept => ?_
      have further := ih kept (number + 1)
      rwa [Nat.add_right_comm] at further

theorem Onto.close (onto : Onto base shift reading later) :
    Moved shift (Overridden base) reading.close later.close := by
  unfold Reading.close
  rw [onto.waiting]
  cases reading.waiting with
  | none => exact .ok onto.config
  | some pending => exact pending.store_moved shift onto.config

end Reading

/-- Entries are read onto those stored before as they are read alone. -/
theorem ofProperties_onto (base : Config) (shift : Nat) (text : String) :
    Moved shift (Overridden base) (ofProperties text)
      ((Reading.lines (1 + shift) ⟨none, base⟩ (Text.lines text.toList)).bind Reading.close) := by
  have onto : Reading.Onto base shift {} ⟨none, base⟩ := ⟨rfl, overridden_empty base⟩
  rw [ofProperties_eq]
  exact (onto.lines 1 _).bind fun _ _ kept => kept.close

end Config

end ChoiceExplorer
