import ChoiceExplorer.Config.FlatJson
import ChoiceExplorer.Config.Overrides
import ChoiceExplorer.Proofs.JsonReadBack
import ChoiceExplorer.Proofs.PropertyFaults

/-!
# Agreeing sources

Entries can be given as property lines, as overrides, or as the members of a JSON object.
If no key or value holds what one of the sources reads in a way of its own, all of them give
the same configuration, in which each key has the value of its last occurrence.
-/

namespace ChoiceExplorer

namespace Table

variable {α β : Type}

def insertAll (table : Table α) (entries : List (String × α)) : Table α :=
  entries.foldl (fun table entry => table.insert entry.1 entry.2) table

theorem ofList_eq (entries : List (String × α)) : ofList entries = empty.insertAll entries := rfl

theorem insertAll_cons (table : Table α) (entry : String × α) (rest : List (String × α)) :
    table.insertAll (entry :: rest) = (table.insert entry.1 entry.2).insertAll rest := rfl

theorem get?_insertAll (table : Table α) (entries : List (String × α)) (key : String) :
    (table.insertAll entries).get? key =
      ((entries.filter fun entry => entry.1 = key).getLast?.map Prod.snd).or (table.get? key) := by
  induction entries generalizing table with
  | nil => rfl
  | cons entry rest ih =>
      rw [insertAll_cons, ih, get?_insert, List.filter_cons]
      by_cases same : entry.1 = key
      · rw [if_pos same.symm, if_pos (decide_eq_true same), List.getLast?_cons]
        cases (rest.filter fun entry => entry.1 = key).getLast? <;> rfl
      · rw [if_neg (Ne.symm same), if_neg (by simp [same])]

/-- Of the values given for a key the last one is kept. -/
theorem get?_ofList (entries : List (String × α)) (key : String) :
    (ofList entries).get? key =
      (entries.filter fun entry => entry.1 = key).getLast?.map Prod.snd := by
  rw [ofList_eq, get?_insertAll, get?_empty, Option.or_none]

/-- An entry behind all others is stored behind them. -/
theorem insertEntry_of_forall_lt {key : String} {entries : List (String × α)}
    (below : ∀ entry ∈ entries, entry.1 < key) (value : α) :
    insertEntry key value entries = entries ++ [(key, value)] := by
  induction entries with
  | nil => rfl
  | cons first rest ih =>
      obtain ⟨here, further⟩ := List.forall_mem_cons.mp below
      have notAfter : ¬key < first.1 := fun after => String.lt_irrefl _ (String.lt_trans here after)
      rw [insertEntry, if_neg notAfter, if_pos here, ih further, List.cons_append]

/-- Entries in order behind those of a table are stored behind them. -/
theorem entries_insertAll (table : Table α) (rest : List (String × α))
    (sorted : (table.entries ++ rest).Pairwise fun first second => first.1 < second.1) :
    (table.insertAll rest).entries = table.entries ++ rest := by
  induction rest generalizing table with
  | nil => rw [List.append_nil]; rfl
  | cons entry rest ih =>
      have below : ∀ earlier ∈ table.entries, earlier.1 < entry.1 := fun earlier member =>
        (List.pairwise_append.mp sorted).2.2 earlier member entry List.mem_cons_self
      have stored : (table.insert entry.1 entry.2).entries = table.entries ++ [entry] :=
        insertEntry_of_forall_lt below entry.2
      have split : table.entries ++ entry :: rest = (table.entries ++ [entry]) ++ rest := by simp
      rw [insertAll_cons, ih _ (by rwa [stored, ← split]), stored, split]

/-- A table is the table of its entries. -/
theorem ofList_entries (table : Table α) : ofList table.entries = table := by
  have same : (ofList table.entries).entries = table.entries :=
    entries_insertAll empty table.entries table.sorted
  cases made : ofList table.entries
  cases table
  rw [made] at same
  cases same
  rfl

theorem insertEntry_map (change : α → β) (key : String) (value : α)
    (entries : List (String × α)) :
    insertEntry key (change value) (entries.map fun entry => (entry.1, change entry.2)) =
      (insertEntry key value entries).map fun entry => (entry.1, change entry.2) := by
  induction entries with
  | nil => rfl
  | cons first rest ih =>
      rw [List.map_cons, insertEntry, insertEntry, ih]
      split_ifs <;> rfl

/-- Values are changed alike before and after they are stored. -/
theorem entries_insertAll_map (change : α → β) {table : Table α} {changed : Table β}
    (same : changed.entries = table.entries.map fun entry => (entry.1, change entry.2))
    (entries : List (String × α)) :
    (changed.insertAll (entries.map fun entry => (entry.1, change entry.2))).entries =
      (table.insertAll entries).entries.map fun entry => (entry.1, change entry.2) := by
  induction entries generalizing table changed with
  | nil => exact same
  | cons entry rest ih =>
      refine ih ?_
      show insertEntry entry.1 (change entry.2) changed.entries = _
      rw [same, insertEntry_map]
      rfl

end Table

namespace Config

def propertyLine (entry : String × String) : String := entry.1 ++ "=" ++ entry.2

def propertyText (entries : List (String × String)) : String :=
  String.join (entries.map fun entry => propertyLine entry ++ "\n")

def overrideText (entry : String × String) : String := "+" ++ propertyLine entry

def jsonText (entries : List (String × String)) : String :=
  Json.objectText (entries.map fun entry => (entry.1, Json.stringText entry.2))

/-- An entry that no source reads in a way of its own. -/
structure IsPortable (entry : String × String) : Prop extends IsNormalEntry entry.1 entry.2 where
  begins : ∀ first ∈ entry.1.toList.head?, first ≠ '#' ∧ first ≠ '!'
  ends : entry.2.toList.getLast? ≠ some '\\'

instance (entry : String × String) : Decidable (IsPortable entry) :=
  decidable_of_iff (IsNormalEntry entry.1 entry.2 ∧
      (entry.1.toList.head?.all fun first => first ≠ '#' ∧ first ≠ '!') = true ∧
      entry.2.toList.getLast? ≠ some '\\') (by
    simp only [Option.all_eq_true, decide_eq_true_eq]
    exact ⟨fun ⟨normal, begins, ends⟩ => ⟨normal, begins, ends⟩,
      fun ⟨normal, begins, ends⟩ => ⟨normal, begins, ends⟩⟩)

theorem toList_propertyLine (entry : String × String) :
    (propertyLine entry).toList = entry.1.toList ++ '=' :: entry.2.toList := by
  simp [propertyLine]

namespace IsPortable

variable {entry : String × String}

theorem exists_first (portable : IsPortable entry) :
    ∃ first rest, entry.1.toList = first :: rest ∧ Text.isBlank first = false ∧
      first ≠ '#' ∧ first ≠ '!' := by
  cases chars : entry.1.toList with
  | nil => exact absurd (String.toList_eq_nil_iff.mp chars) portable.named
  | cons first rest =>
      have headed : entry.1.toList.head? = some first := by rw [chars, List.head?_cons]
      exact ⟨first, rest, rfl, portable.key_trimmed.first first headed,
        portable.begins first headed⟩

/-- A line ends with the last character of its value, or with the equals sign. -/
theorem getLast?_line (entry : String × String) :
    (propertyLine entry).toList.getLast? = some (entry.2.toList.getLast?.getD '=') := by
  rw [toList_propertyLine, List.getLast?_append, List.getLast?_cons, Option.some_or]

theorem isTrimmed_line (portable : IsPortable entry) :
    Text.IsTrimmed (propertyLine entry).toList := by
  obtain ⟨first, rest, chars, visible, -⟩ := portable.exists_first
  constructor
  · rw [toList_propertyLine, chars, List.cons_append, List.head?_cons]
    intro char isFirst
    rwa [← Option.mem_some_iff.mp isFirst]
  · rw [getLast?_line]
    intro char isLast
    rw [← Option.mem_some_iff.mp isLast]
    cases last : entry.2.toList.getLast? with
    | none => decide
    | some char => exact portable.value_trimmed.last char last

theorem entry?_line (portable : IsPortable entry) :
    entry? (propertyLine entry).toList = some entry := by
  refine entry?_eq_some_iff.mpr ⟨_, _, toList_propertyLine entry, portable.key_undivided, ?_, ?_, ?_⟩
  · rw [Text.trim_of_isTrimmed portable.key_trimmed]
    exact fun empty => portable.named (String.toList_eq_nil_iff.mp empty)
  · rw [Text.trim_of_isTrimmed portable.key_trimmed, String.ofList_toList]
  · rw [Text.trim_of_isTrimmed portable.value_trimmed, String.ofList_toList]

/-- A line between entries is stored at once. -/
theorem line (portable : IsPortable entry) (number : Nat) (config : Config) :
    Reading.line number ⟨none, config⟩ (propertyLine entry).toList =
      .ok ⟨none, config.insert entry.1 entry.2⟩ := by
  obtain ⟨first, rest, chars, -, notHash, notBang⟩ := portable.exists_first
  have kept : isSkipped (propertyLine entry).toList = false := by
    rw [toList_propertyLine, chars, List.cons_append, isSkipped, Bool.or_eq_false_iff]
    exact ⟨beq_eq_false_iff_ne.mpr notHash, beq_eq_false_iff_ne.mpr notBang⟩
  have ended : Pending.continues ⟨number, (propertyLine entry).toList⟩ = false := by
    rw [Pending.continues, getLast?_line]
    refine beq_eq_false_iff_ne.mpr fun backslash => ?_
    cases last : entry.2.toList.getLast? with
    | none => rw [last] at backslash; exact absurd backslash (by decide)
    | some char => rw [last] at backslash; exact portable.ends (last.trans backslash)
  rw [Reading.line, joinLine, Text.trim_of_isTrimmed portable.isTrimmed_line, kept]
  simp only [Bool.false_eq_true, if_false, ended, Pending.store, portable.entry?_line]
  rfl

/-- An override gives the entry on the line behind its plus sign. -/
theorem override? (portable : IsPortable entry) :
    Config.override? (overrideText entry) = some entry := by
  have text : (overrideText entry).toList = '+' :: (propertyLine entry).toList := by
    simp [overrideText]
  rw [Config.override?, text]
  exact portable.entry?_line

end IsPortable

variable {entries : List (String × String)}

/-- Property lines are stored one after the other. -/
theorem lines_of_portable (portable : ∀ entry ∈ entries, IsPortable entry) (number : Nat)
    (config : Config) :
    Reading.lines number ⟨none, config⟩ (entries.map fun entry => (propertyLine entry).toList) =
      .ok ⟨none, config.insertAll entries⟩ := by
  induction entries generalizing number config with
  | nil => rfl
  | cons entry rest ih =>
      obtain ⟨here, further⟩ := List.forall_mem_cons.mp portable
      rw [List.map_cons, Reading.lines, here.line]
      exact ih further (number + 1) (config.insert entry.1 entry.2)

theorem ofProperties_of_lines (portable : ∀ entry ∈ entries, IsPortable entry) {text : String}
    (lines : Text.lines text.toList = entries.map fun entry => (propertyLine entry).toList) :
    ofProperties text = .ok (.ofList entries) := by
  rw [ofProperties_eq, lines, lines_of_portable portable]
  rfl

/-- The lines of written property text are those that were written. -/
theorem lines_propertyText (portable : ∀ entry ∈ entries, IsPortable entry) :
    Text.lines (propertyText entries).toList =
      entries.map fun entry => (propertyLine entry).toList := by
  induction entries with
  | nil => rfl
  | cons entry rest ih =>
      obtain ⟨here, further⟩ := List.forall_mem_cons.mp portable
      have plain : '\n' ∉ (propertyLine entry).toList := by
        rw [toList_propertyLine, List.mem_append, List.mem_cons, not_or, not_or]
        exact ⟨here.key_on_line, by decide, here.value_on_line⟩
      have ends : (propertyLine entry).toList.getLast? ≠ some '\r' := by
        intro carriage
        have visible := here.isTrimmed_line.last '\r' carriage
        exact absurd visible (by decide)
      have split : (propertyText (entry :: rest)).toList =
          (propertyLine entry).toList ++ '\n' :: (propertyText rest).toList := by
        simp [propertyText]
      rw [split, Text.lines_append_feed plain ends, ih further, List.map_cons]

/-- Overrides are stored one after the other. -/
theorem applyOverrides_of_portable (portable : ∀ entry ∈ entries, IsPortable entry)
    (config : Config) :
    applyOverrides config (entries.map overrideText) = (config.insertAll entries, .ok ()) := by
  induction entries generalizing config with
  | nil => rfl
  | cons entry rest ih =>
      obtain ⟨here, further⟩ := List.forall_mem_cons.mp portable
      rw [List.map_cons, applyOverrides, here.override?]
      exact ih further (config.insert entry.1 entry.2)

/-- Members with strings are stored one after the other. -/
theorem storeMembers_strings (config : Config) (entries : List (String × String)) :
    storeMembers config (entries.map fun entry => (entry.1, Json.Value.string entry.2)) =
      .ok (config.insertAll entries) := by
  induction entries generalizing config with
  | nil => rfl
  | cons entry rest ih => exact ih (config.insert entry.1 entry.2)

/-- An object with strings gives the entries that it has as members. -/
theorem ofJson_ofStrings (entries : List (String × String)) :
    ofJson (.ofStrings entries) = .ok (.ofList entries) := by
  have members : (Table.ofList (entries.map fun entry =>
      (entry.1, Json.Value.string entry.2))).entries =
        (Table.ofList entries).entries.map fun entry => (entry.1, Json.Value.string entry.2) :=
    Table.entries_insertAll_map Json.Value.string rfl entries
  rw [Json.Value.ofStrings, ofJson, members, storeMembers_strings]
  exact congrArg Except.ok (Table.ofList_entries _)

theorem ofJsonText_of_value {text : String}
    (value : Json.Value.parse? text = some (.ofStrings entries)) :
    ofJsonText text = .ok (.ofList entries) := by
  rw [ofJsonText, value]
  exact ofJson_ofStrings entries

/-- What is read from property text, overrides and JSON that give the same entries. -/
structure Carries (entries : List (String × String)) (config : Config) : Prop where
  properties : ofProperties (propertyText entries) = .ok config
  lines : ∀ text, Text.lines text.toList = entries.map (fun entry => (propertyLine entry).toList) →
    ofProperties text = .ok config
  overrides : ofOverrides (entries.map overrideText) = .ok config
  json : ofJsonText (jsonText entries) = .ok config
  values : ∀ text, Json.Value.parse? text = some (.ofStrings entries) →
    ofJsonText text = .ok config
  last : ∀ key, config.get? key =
    (entries.filter fun entry => entry.1 = key).getLast?.map Prod.snd

/-- All sources of the same entries give one configuration, with the last value of each key. -/
theorem sources_agree (portable : ∀ entry ∈ entries, IsPortable entry) :
    Carries entries (.ofList entries) := by
  constructor
  · exact ofProperties_of_lines portable (lines_propertyText portable)
  · exact fun _ => ofProperties_of_lines portable
  · rw [ofOverrides, applyOverrides_of_portable portable]
    rfl
  · exact ofJsonText_of_value (Json.Value.parse?_objectText entries)
  · exact fun _ => ofJsonText_of_value
  · exact Table.get?_ofList entries

/-- Values that hold what divides, begins or joins lines, blanks inside, and a repeated key. -/
def crowdedEntries : List (String × String) :=
  [("a b", "x=1"), ("+c", "#\\\"\r\t!"), ("a b", ""), ("d\\", "\x01 \u00a0\u2028y")]

/-- The crowded entries are portable, and of the repeated key the last value is kept. -/
theorem crowded_sources_agree :
    (∀ entry ∈ crowdedEntries, IsPortable entry) ∧
      Carries crowdedEntries (.ofList crowdedEntries) ∧
      (Table.ofList crowdedEntries).get? "a b" = some "" := by
  have portable : ∀ entry ∈ crowdedEntries, IsPortable entry := by decide +kernel
  have carries := sources_agree portable
  refine ⟨portable, carries, ?_⟩
  rw [carries.last "a b"]
  decide +kernel

end Config

end ChoiceExplorer
