import Mathlib.Data.List.Forall2
import ChoiceExplorer.Config.Lookup
import ChoiceExplorer.Proofs.ArrayReadBack
import ChoiceExplorer.Proofs.FlatObjects
import ChoiceExplorer.Proofs.Runs

/-!
# Items of list options

A list option holds its items between gaps of commas, semicolons and blanks.  Items come back
as they were stored, whether they were joined by such gaps or given as a JSON array.
-/

namespace ChoiceExplorer.Config

def IsItem (item : String) : Prop := Text.IsRun isSeparator item.toList

/-- A text of commas, semicolons and blanks, or an empty one. -/
def IsGap (gap : String) : Prop := Text.IsGap isSeparator gap.toList

-- Said with `all`, so that the characters of the text are tested and not all there are.
instance (item : String) : Decidable (IsItem item) :=
  decidable_of_iff (item.toList ≠ [] ∧ (item.toList.all fun char => !isSeparator char) = true) (by
    simp only [List.all_eq_true, Bool.not_eq_true']
    exact ⟨fun ⟨made, free⟩ => ⟨made, free⟩, fun ⟨made, free⟩ => ⟨made, free⟩⟩)

instance (gap : String) : Decidable (IsGap gap) :=
  decidable_of_iff (gap.toList.all isSeparator = true) List.all_eq_true

/-- A text with a gap in front of items and another one behind each of them. -/
def spread (front : String) (items gaps : List String) : String :=
  front ++ String.join (List.zipWith (· ++ ·) items gaps)

/-- Gaps for behind items, of which only the last one may be empty. -/
structure AreGaps (items gaps : List String) : Prop where
  length_eq : gaps.length = items.length
  areGaps : ∀ gap ∈ gaps, IsGap gap
  made : ∀ gap ∈ gaps.dropLast, gap ≠ ""

/-- The text of a list option holds items. -/
def HoldsItems (text : String) (items : List String) : Prop :=
  Text.Holds isSeparator (items.map String.toList) text.toList

theorem listItems_eq_iff {text : String} {items : List String} :
    listItems text = items ↔ HoldsItems text items := by
  rw [listItems, HoldsItems, ← Text.runs_eq_iff]
  constructor
  · rintro rfl
    simp
  · intro same
    simp [same]

theorem toList_spread (front : String) (items gaps : List String) :
    (spread front items gaps).toList =
      front.toList ++ (String.join (List.zipWith (· ++ ·) items gaps)).toList :=
  String.toList_append

theorem toList_spread_cons (front item gap : String) (items gaps : List String) :
    (spread front (item :: items) (gap :: gaps)).toList =
      front.toList ++ (item.toList ++ (spread gap items gaps).toList) := by
  simp [spread]

namespace AreGaps

variable {item gap : String} {items gaps : List String}

theorem tail (areGaps : AreGaps (item :: items) (gap :: gaps)) : AreGaps items gaps := by
  refine ⟨Nat.succ.inj areGaps.length_eq, fun next member => ?_, fun next member => ?_⟩
  · exact areGaps.areGaps next (List.mem_cons_of_mem _ member)
  · cases gaps with
    | nil => cases member
    | cons first rest => exact areGaps.made next (List.mem_cons_of_mem _ member)

/-- Behind an item stands a separator, or nothing at all. -/
theorem ends (areGaps : AreGaps (item :: items) (gap :: gaps)) :
    ∀ next ∈ (spread gap items gaps).toList.head?, isSeparator next = true := by
  intro next first
  rw [toList_spread, List.head?_append] at first
  cases begins : gap.toList.head? with
  | some char =>
      rw [begins, Option.some_or, Option.mem_some_iff] at first
      exact first ▸ areGaps.areGaps gap List.mem_cons_self char (List.mem_of_mem_head? begins)
  | none =>
      have empty : gap = "" := String.toList_eq_nil_iff.mp (List.head?_eq_none_iff.mp begins)
      cases gaps with
      | nil => simp [begins] at first
      | cons other rest => exact absurd empty (areGaps.made gap List.mem_cons_self)

end AreGaps

/-- Items between gaps are held by the text. -/
theorem holdsItems_spread {front : String} {items gaps : List String} (isGap : IsGap front)
    (areItems : ∀ item ∈ items, IsItem item) (areGaps : AreGaps items gaps) :
    HoldsItems (spread front items gaps) items := by
  induction items generalizing front gaps with
  | nil =>
      rw [HoldsItems, toList_spread, List.zipWith_nil_left, String.join_nil, String.toList_empty,
        List.append_nil]
      exact .gap isGap
  | cons item rest ih =>
      obtain ⟨here, further⟩ := List.forall_mem_cons.mp areItems
      cases gaps with
      | nil => cases areGaps.length_eq
      | cons gap gaps =>
          rw [HoldsItems, toList_spread_cons]
          have isNext : IsGap gap := areGaps.areGaps gap List.mem_cons_self
          exact .run isGap here areGaps.ends (ih isNext further areGaps.tail)

theorem holdsItems_intercalate {items : List String} (areItems : ∀ item ∈ items, IsItem item) :
    HoldsItems (",".intercalate items) items := by
  have areRuns : ∀ run ∈ items.map String.toList, Text.IsRun isSeparator run :=
    List.forall_mem_map.mpr areItems
  have comma : isSeparator ',' = true := by decide
  rw [HoldsItems, String.toList_intercalate]
  exact Text.holds_intercalate comma areRuns

/-- Under a key with a text stand the items that the text holds. -/
theorem list?_eq_some_iff {config : Config} {key text : String}
    (stored : config.get? key = some text) {items : List String} :
    config.list? key = some items ↔ HoldsItems text items := by
  rw [list?, stored, Option.map_some, Option.some_inj, listItems_eq_iff]

/-- Strings in an array are stored with commas between them. -/
theorem isMemberText_strings (items : List String) :
    IsMemberText (.array (items.map .string)) (",".intercalate items) := by
  refine .array (List.forall₂_map_left_iff.mpr (List.forall₂_same.mpr fun item _ => ?_))
  exact .string item

/-- A flat object gives a configuration that returns the items of an array of strings. -/
theorem exists_list?_of_array {text key : String} {members : List (String × Json.Value)}
    {items : List String} (value : Json.Value.parse? text = some (.object members))
    (last : Table.IsLast members key (.array (items.map .string)))
    (flat : ∀ other, ¬NestedUnder members other) (areItems : ∀ item ∈ items, IsItem item) :
    ∃ config, ofJsonText text = .ok config ∧ config.list? key = some items := by
  obtain ⟨config, read, texts⟩ := exists_ofJson_of_flat flat
  have stored := (texts key _).mpr ⟨_, last, isMemberText_strings items⟩
  refine ⟨config, ?_, (list?_eq_some_iff stored).mpr (holdsItems_intercalate areItems)⟩
  rw [ofJsonText, value]
  exact read

theorem not_isNested_strings (items : List String) : ¬IsNested (.array (items.map .string)) := by
  intro nested
  cases nested with
  | array member textless =>
      obtain ⟨item, -, rfl⟩ := List.mem_map.mp member
      cases textless

def arrayOption (key : String) (items : List String) : String :=
  Json.objectText [(key, Json.arrayText (items.map Json.stringText))]

theorem exists_list?_of_arrayOption (key : String) {items : List String}
    (areItems : ∀ item ∈ items, IsItem item) :
    ∃ config, ofJsonText (arrayOption key items) = .ok config ∧ config.list? key = some items := by
  have last : Table.IsLast [(key, Json.Value.array (items.map .string))] key
      (.array (items.map .string)) := ⟨[], [], rfl, fun _ member => by cases member⟩
  refine exists_list?_of_array (Json.Value.parse?_arrayText key items) last ?_ areItems
  rintro other ⟨value, isLast, nested⟩
  cases List.mem_singleton.mp isLast.mem
  exact not_isNested_strings items nested

/-- Every way in which items are stored as a list gives them back. -/
structure AreKept (items : List String) : Prop where
  spread : ∀ (config : Config) (key front : String) (gaps : List String), IsGap front →
    AreGaps items gaps → config.get? key = some (spread front items gaps) →
      config.list? key = some items
  written : ∀ key, ∃ config, ofJsonText (arrayOption key items) = .ok config ∧
    config.list? key = some items
  json : ∀ (text key : String) (members : List (String × Json.Value)),
    Json.Value.parse? text = some (.object members) →
    Table.IsLast members key (.array (items.map .string)) → (∀ other, ¬NestedUnder members other) →
      ∃ config, ofJsonText text = .ok config ∧ config.list? key = some items

/--
The items of a text are the maximal runs without separators that it holds between gaps, and
they are the items of the text that joins them.
-/
structure AreRuns (text : String) (items : List String) : Prop where
  held : HoldsItems text items
  only : ∀ others, HoldsItems text others → others = items
  areItems : ∀ item ∈ items, IsItem item
  again : listItems (",".intercalate items) = items

/--
Items come back in order as they were stored.  Whatever text is stored, its items are the
maximal runs without separators.
-/
theorem lists_survive_their_encoding :
    (∀ items, (∀ item ∈ items, IsItem item) → AreKept items) ∧
      ∀ (config : Config) (key text : String), config.get? key = some text →
        ∃ items, config.list? key = some items ∧ AreRuns text items := by
  refine ⟨fun items areItems => ⟨?_, ?_, ?_⟩, fun config key text stored => ?_⟩
  · intro config key front gaps isGap areGaps stored
    exact (list?_eq_some_iff stored).mpr (holdsItems_spread isGap areItems areGaps)
  · exact fun key => exists_list?_of_arrayOption key areItems
  · exact fun text key members value last flat => exists_list?_of_array value last flat areItems
  · have held : HoldsItems text (listItems text) := listItems_eq_iff.mp rfl
    have areItems : ∀ item ∈ listItems text, IsItem item := fun item member =>
      held.areRuns item.toList (List.mem_map_of_mem member)
    refine ⟨listItems text, (list?_eq_some_iff stored).mpr held, held, fun others holds => ?_,
      areItems, listItems_eq_iff.mpr (holdsItems_intercalate areItems)⟩
    exact (listItems_eq_iff.mpr holds).symm

def plainItems : List String := ["a=b", "#c", "d\\"]

def looseConfig : Config := Table.empty.insert "k" "\u2003a=b;, #c\u00a0d\\;"

def repeatedText : String := "\x7b\"k\":\x7b\x7d,\"n\":null,\"k\":[\"a=b\",\"#c\",\"d\\\\\"]\x7d"

def repeatedMembers : List (String × Json.Value) :=
  [("k", .object []), ("n", .null), ("k", .array (plainItems.map .string))]

theorem not_nestedUnder_repeatedMembers (key : String) : ¬NestedUnder repeatedMembers key := by
  have entries : (Table.ofList repeatedMembers).entries =
      [("k", .array (plainItems.map .string)), ("n", .null)] := by rfl
  intro under
  obtain ⟨value, member, nested⟩ := nestedUnder_iff.mp under
  rw [entries] at member
  rcases List.mem_cons.mp member with same | later
  · cases same
    exact not_isNested_strings plainItems nested
  · cases List.mem_singleton.mp later
    cases nested

theorem plain_lists_survive_their_encoding :
    (∀ item ∈ plainItems, IsItem item) ∧ looseConfig.list? "k" = some plainItems ∧
      (∃ config, ofJsonText (arrayOption "k" plainItems) = .ok config ∧
        config.list? "k" = some plainItems) ∧
      (∃ config, ofJsonText repeatedText = .ok config ∧ config.list? "k" = some plainItems) ∧
      ∃ items, looseConfig.list? "k" = some items ∧ AreRuns "\u2003a=b;, #c\u00a0d\\;" items := by
  have areItems : ∀ item ∈ plainItems, IsItem item := by decide
  have areGaps : AreGaps plainItems [";, ", "\u00a0", ";"] := ⟨rfl, by decide, by decide⟩
  have value : Json.Value.parse? repeatedText = some (.object repeatedMembers) := by cbv
  have last : Table.IsLast repeatedMembers "k" (.array (plainItems.map .string)) :=
    ⟨[("k", .object []), ("n", .null)], [], rfl, fun _ member => by cases member⟩
  obtain ⟨kept, runs⟩ := lists_survive_their_encoding
  have kept := kept plainItems areItems
  refine ⟨areItems, ?_, kept.written "k", ?_, runs looseConfig "k" _ (by decide)⟩
  · exact kept.spread looseConfig "k" "\u2003" _ (by decide) areGaps (by decide)
  · exact kept.json _ "k" _ value last not_nestedUnder_repeatedMembers

end ChoiceExplorer.Config
