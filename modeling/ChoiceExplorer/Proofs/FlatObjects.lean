import ChoiceExplorer.Proofs.TableEntries

/-!
# Flat objects

A JSON value is read as a configuration exactly if it is a flat object: no member that counts
is an object, or an array with anything but strings, truth values and numbers in it.  Of the
members with one key the last one counts.  If there are nested members, the least of their keys
is reported, wherever they stand in the text.
-/

namespace ChoiceExplorer.Config

/-- A string as it is, and the JSON text of a truth value or a number. -/
inductive IsScalarText : Json.Value → String → Prop where
  | string (text : String) : IsScalarText (.string text) text
  | false : IsScalarText (.bool false) "false"
  | true : IsScalarText (.bool true) "true"
  | integer (value : Int) : IsScalarText (.number (.integer value)) (toString value)
  | double (value : Floating.Double) :
      IsScalarText (.number (.double value)) (value.text Json.doubleLayout)

/-- What no array may hold: a null, an array or an object. -/
inductive IsTextless : Json.Value → Prop where
  | null : IsTextless .null
  | array (items : List Json.Value) : IsTextless (.array items)
  | object (members : List (String × Json.Value)) : IsTextless (.object members)

/-- The text that is stored for a member: that of a scalar, or those of items joined by commas. -/
inductive IsMemberText : Json.Value → String → Prop where
  | scalar {value : Json.Value} {text : String} (isText : IsScalarText value text) :
      IsMemberText value text
  | array {items : List Json.Value} {texts : List String}
      (areTexts : List.Forall₂ IsScalarText items texts) :
      IsMemberText (.array items) (",".intercalate texts)

/-- An object, or an array with a null, an array or an object in it. -/
inductive IsNested : Json.Value → Prop where
  | object (members : List (String × Json.Value)) : IsNested (.object members)
  | array {items : List Json.Value} {item : Json.Value} (member : item ∈ items)
      (textless : IsTextless item) : IsNested (.array items)

/-- Of the members with a key the last one is nested. -/
def NestedUnder (members : List (String × Json.Value)) (key : String) : Prop :=
  ∃ value, Table.IsLast members key value ∧ IsNested value

inductive ReadsAs : Json.Value → Except Error Config → Prop where
  | notAnObject {value : Json.Value} (other : ∀ members, value ≠ .object members) :
      ReadsAs value (.error .notAnObject)
  | nested {members : List (String × Json.Value)} {key : String} (nested : NestedUnder members key)
      (least : ∀ other, NestedUnder members other → ¬other < key) :
      ReadsAs (.object members) (.error (.nestedValue key))
  | flat {members : List (String × Json.Value)} {config : Config}
      (flat : ∀ key, ¬NestedUnder members key)
      (keys : ∀ key, config.contains key = true ↔
        ∃ value, Table.IsLast members key value ∧ value ≠ .null)
      (texts : ∀ key text, config.get? key = some text ↔
        ∃ value, Table.IsLast members key value ∧ IsMemberText value text) :
      ReadsAs (.object members) (.ok config)

/-! ## Single members -/

theorem scalarText?_eq_some_iff {value : Json.Value} {text : String} :
    scalarText? value = some text ↔ IsScalarText value text := by
  constructor
  · intro found
    cases value with
    | bool truth =>
        cases truth with
        | false => cases found; exact .false
        | true => cases found; exact .true
    | number number =>
        cases number with
        | integer value => cases found; exact .integer value
        | double value => cases found; exact .double value
    | string text => cases found; exact .string _
    | null | array _ | object _ => cases found
  · intro isText
    cases isText <;> rfl

theorem scalarText?_eq_none_iff {value : Json.Value} :
    scalarText? value = none ↔ IsTextless value := by
  constructor
  · intro missing
    cases value with
    | null => exact .null
    | array items => exact .array items
    | object members => exact .object members
    | bool _ | number _ | string _ => cases missing
  · intro textless
    cases textless <;> rfl

theorem scalarTexts?_eq_some_iff {items : List Json.Value} {texts : List String} :
    scalarTexts? items = some texts ↔ List.Forall₂ IsScalarText items texts := by
  constructor
  · intro found
    induction items generalizing texts with
    | nil => cases found; exact .nil
    | cons item rest ih =>
        obtain ⟨text, isText, read⟩ := Option.bind_eq_some_iff.mp found
        obtain ⟨later, areTexts, same⟩ := Option.bind_eq_some_iff.mp read
        cases same
        exact .cons (scalarText?_eq_some_iff.mp isText) (ih areTexts)
  · intro areTexts
    induction areTexts with
    | nil => rfl
    | cons isText _ ih => rw [scalarTexts?, scalarText?_eq_some_iff.mpr isText, ih]; rfl

theorem scalarTexts?_eq_none_iff {items : List Json.Value} :
    scalarTexts? items = none ↔ ∃ item ∈ items, IsTextless item := by
  induction items with
  | nil => simp [scalarTexts?]
  | cons item rest ih =>
      rw [List.exists_mem_cons_iff, ← ih, ← scalarText?_eq_none_iff, scalarTexts?]
      cases scalarText? item with
      | none => simp
      | some text => cases scalarTexts? rest <;> simp

theorem stored_array (items : List Json.Value) :
    stored (.array items) = ((scalarTexts? items).elim .nested fun texts =>
      .text (",".intercalate texts)) := by
  rw [stored]
  cases scalarTexts? items <;> rfl

/-- What is stored for a value: nothing for a null, a text, or no text as the value is nested. -/
inductive Keeps : Json.Value → Stored → Prop where
  | nothing : Keeps .null .nothing
  | text {value : Json.Value} {text : String} (isText : IsMemberText value text) :
      Keeps value (.text text)
  | nested {value : Json.Value} (nested : IsNested value) : Keeps value .nested

theorem keeps_stored (value : Json.Value) : Keeps value (stored value) := by
  cases value with
  | null => exact .nothing
  | bool _ | number _ | string _ => exact .text (.scalar (scalarText?_eq_some_iff.mp rfl))
  | array items =>
      rw [stored_array]
      cases read : scalarTexts? items with
      | none =>
          obtain ⟨item, member, textless⟩ := scalarTexts?_eq_none_iff.mp read
          exact .nested (.array member textless)
      | some texts => exact .text (.array (scalarTexts?_eq_some_iff.mp read))
  | object members => exact .nested (.object members)

theorem stored_eq_iff {value : Json.Value} {kept : Stored} :
    stored value = kept ↔ Keeps value kept := by
  constructor
  · rintro rfl
    exact keeps_stored value
  · intro keeps
    cases keeps with
    | nothing => rfl
    | text isText =>
        cases isText with
        | scalar isText => cases isText <;> rfl
        | array areTexts => rw [stored_array, scalarTexts?_eq_some_iff.mpr areTexts]; rfl
    | nested nested =>
        cases nested with
        | object _ => rfl
        | array member textless =>
            rw [stored_array, scalarTexts?_eq_none_iff.mpr ⟨_, member, textless⟩]
            rfl

theorem Keeps.text_iff {value : Json.Value} {text : String} :
    Keeps value (.text text) ↔ IsMemberText value text := by
  constructor
  · intro keeps
    cases keeps with
    | text isText => exact isText
  · exact .text

theorem stored_eq_nested_iff {value : Json.Value} : stored value = .nested ↔ IsNested value := by
  rw [stored_eq_iff]
  constructor
  · intro keeps
    cases keeps with
    | nested nested => exact nested
  · exact .nested

theorem not_isNested_of_stored {value : Json.Value} {kept : Stored} (same : stored value = kept)
    (other : kept ≠ .nested) : ¬IsNested value := by
  intro nested
  exact other (same.symm.trans (stored_eq_nested_iff.mpr nested))

/-- A value that is not nested has a text unless it is null. -/
theorem exists_isMemberText_iff {value : Json.Value} (unnested : ¬IsNested value) :
    (∃ text, IsMemberText value text) ↔ value ≠ .null := by
  constructor
  · rintro ⟨text, isText⟩ rfl
    cases stored_eq_iff.mpr (.text isText)
  · intro made
    have keeps := keeps_stored value
    generalize stored value = kept at keeps
    cases keeps with
    | nothing => exact absurd rfl made
    | text isText => exact ⟨_, isText⟩
    | nested nested => exact absurd nested unnested

/-! ## Members in the order of their keys -/

def memberText? (value : Json.Value) : Option String :=
  match stored value with
  | .text text => some text
  | _ => none

theorem memberText?_eq_some_iff {value : Json.Value} {text : String} :
    memberText? value = some text ↔ IsMemberText value text := by
  rw [← Keeps.text_iff, ← stored_eq_iff, memberText?]
  cases stored value <;> simp

/-- What storing members in the order of their keys gives. -/
inductive Stores (config : Config) (members : List (String × Json.Value)) :
    Except Error Config → Prop where
  | nested {key : String} {value : Json.Value} (member : (key, value) ∈ members)
      (nested : IsNested value)
      (least : ∀ other ∈ members, IsNested other.2 → ¬other.1 < key) :
      Stores config members (.error (.nestedValue key))
  | flat {result : Config} (flat : ∀ member ∈ members, ¬IsNested member.2)
      (holds : ∀ key, result.get? key =
        ((Table.lookup key members).bind memberText?).or (config.get? key)) :
      Stores config members (.ok result)

/-- Behind a member that is not nested the others are stored as they would be without it. -/
theorem Stores.cons {config next : Config} {key : String} {value : Json.Value}
    {rest : List (String × Json.Value)} {outcome : Except Error Config}
    (below : ∀ other ∈ rest, key < other.1) (unnested : ¬IsNested value)
    (here : ∀ asked, next.get? asked =
      if asked = key then (memberText? value).or (config.get? asked) else config.get? asked)
    (stores : Stores next rest outcome) : Stores config ((key, value) :: rest) outcome := by
  cases stores with
  | nested member nested least =>
      refine .nested (List.mem_cons_of_mem _ member) nested ?_
      exact List.forall_mem_cons.mpr ⟨fun isNested => absurd isNested unnested, least⟩
  | flat flat holds =>
      refine .flat (List.forall_mem_cons.mpr ⟨unnested, flat⟩) fun asked => ?_
      rw [holds, here, Table.lookup]
      by_cases same : key = asked
      · have others : ∀ other ∈ rest, other.1 ≠ asked := fun other member =>
          same ▸ (String.ne_of_lt (below other member)).symm
        rw [if_pos same, if_pos same.symm, Table.lookup_eq_none others]
        rfl
      · rw [if_neg same, if_neg (Ne.symm same)]

theorem stores_storeMembers {members : List (String × Json.Value)}
    (sorted : members.Pairwise fun first second => first.1 < second.1) (config : Config) :
    Stores config members (storeMembers config members) := by
  induction members generalizing config with
  | nil => exact .flat (fun _ member => by cases member) fun key => rfl
  | cons member rest ih =>
      obtain ⟨key, value⟩ := member
      obtain ⟨below, sorted⟩ := List.pairwise_cons.mp sorted
      rw [storeMembers]
      cases kept : stored value with
      | nested =>
          have nested : IsNested value := stored_eq_nested_iff.mp kept
          refine .nested List.mem_cons_self nested (List.forall_mem_cons.mpr ⟨?_, ?_⟩)
          · exact fun _ => String.lt_irrefl key
          · exact fun other member _ => String.lt_asymm (below other member)
      | nothing =>
          have unnested : ¬IsNested value := not_isNested_of_stored kept nofun
          have noText : memberText? value = none := by rw [memberText?, kept]
          exact (ih sorted config).cons below unnested (by simp [noText])
      | text text =>
          have unnested : ¬IsNested value := not_isNested_of_stored kept nofun
          have hasText : memberText? value = some text := by rw [memberText?, kept]
          refine (ih sorted (config.insert key text)).cons below unnested fun asked => ?_
          rw [Table.get?_insert, hasText, Option.some_or]

/-! ## Whole values -/

/-- The members that count are those of the table of all members. -/
theorem isLast_iff_mem_entries {members : List (String × Json.Value)} {key : String}
    {value : Json.Value} :
    Table.IsLast members key value ↔ (key, value) ∈ (Table.ofList members).entries := by
  rw [← Table.get?_ofList_eq_some_iff, Table.get?_eq_some_iff]

theorem nestedUnder_iff {members : List (String × Json.Value)} {key : String} :
    NestedUnder members key ↔
      ∃ value, (key, value) ∈ (Table.ofList members).entries ∧ IsNested value := by
  simp only [NestedUnder, isLast_iff_mem_entries]

/-- Storing the members that count reads the object. -/
theorem Stores.readsAs {members : List (String × Json.Value)} {outcome : Except Error Config}
    (stores : Stores .empty (Table.ofList members).entries outcome) :
    ReadsAs (.object members) outcome := by
  cases stores with
  | nested member nested least =>
      refine .nested (nestedUnder_iff.mpr ⟨_, member, nested⟩) fun other under => ?_
      obtain ⟨value, member, nested⟩ := nestedUnder_iff.mp under
      exact least (other, value) member nested
  | @flat config flat holds =>
      have flat : ∀ key, ¬NestedUnder members key := fun key under => by
        obtain ⟨value, member, nested⟩ := nestedUnder_iff.mp under
        exact flat (key, value) member nested
      have texts (key text : String) : config.get? key = some text ↔
          ∃ value, Table.IsLast members key value ∧ IsMemberText value text := by
        rw [holds, Table.get?_empty, Option.or_none, Option.bind_eq_some_iff]
        simp only [Table.lookup_eq_some_iff (Table.ofList members).sorted,
          memberText?_eq_some_iff, isLast_iff_mem_entries]
      refine .flat flat (fun key => ?_) texts
      rw [Table.contains, Option.isSome_iff_exists]
      constructor
      · rintro ⟨text, found⟩
        obtain ⟨value, last, isText⟩ := (texts key text).mp found
        have unnested : ¬IsNested value := fun nested => flat key ⟨value, last, nested⟩
        exact ⟨value, last, (exists_isMemberText_iff unnested).mp ⟨text, isText⟩⟩
      · rintro ⟨value, last, made⟩
        have unnested : ¬IsNested value := fun nested => flat key ⟨value, last, nested⟩
        obtain ⟨text, isText⟩ := (exists_isMemberText_iff unnested).mpr made
        exact ⟨text, (texts key text).mpr ⟨value, last, isText⟩⟩

theorem readsAs_ofJson (value : Json.Value) : ReadsAs value (ofJson value) := by
  cases value with
  | object members => exact (stores_storeMembers (Table.ofList members).sorted .empty).readsAs
  | null | bool _ | number _ | string _ | array _ => exact .notAnObject nofun

/-- A flat object is read, and the configuration holds the texts of the members that count. -/
theorem exists_ofJson_of_flat {members : List (String × Json.Value)}
    (flat : ∀ key, ¬NestedUnder members key) :
    ∃ config, ofJson (.object members) = .ok config ∧
      ∀ key text, config.get? key = some text ↔
        ∃ value, Table.IsLast members key value ∧ IsMemberText value text := by
  have reads := readsAs_ofJson (.object members)
  generalize ofJson (.object members) = outcome at reads
  cases reads with
  | notAnObject other => exact absurd rfl (other members)
  | nested nested _ => exact absurd nested (flat _)
  | flat _ _ texts => exact ⟨_, rfl, texts⟩

/-- A value is read as one thing only. -/
theorem ReadsAs.unique {value : Json.Value} {first second : Except Error Config}
    (reads : ReadsAs value first) (other : ReadsAs value second) : first = second := by
  cases reads with
  | notAnObject notObject =>
      cases other with
      | notAnObject _ => rfl
      | nested _ _ | flat _ _ _ => exact absurd rfl (notObject _)
  | nested nested least =>
      cases other with
      | notAnObject notObject => exact absurd rfl (notObject _)
      | nested nested' least' => rw [Table.eq_of_not_lt (least' _ nested) (least _ nested')]
      | flat flat _ _ => exact absurd nested (flat _)
  | flat flat _ texts =>
      cases other with
      | notAnObject notObject => exact absurd rfl (notObject _)
      | nested nested _ => exact absurd nested (flat _)
      | flat _ _ texts' =>
          refine congrArg Except.ok (Table.eq_of_get?_eq fun key => Option.ext fun text => ?_)
          rw [texts, texts']

/--
A JSON value is read as a configuration if it is a flat object, and what it is instead is
reported otherwise.  A text is read as the value that it writes, if it writes one.
-/
theorem reads_exactly_flat_objects :
    (∀ value outcome, ofJson value = outcome ↔ ReadsAs value outcome) ∧
      ∀ text outcome, ofJsonText text = outcome ↔
        (Json.Value.parse? text = none ∧ outcome = .error .json) ∨
          ∃ value, Json.Value.parse? text = some value ∧ ReadsAs value outcome := by
  have ofValue (value : Json.Value) (outcome : Except Error Config) :
      ofJson value = outcome ↔ ReadsAs value outcome :=
    ⟨fun same => same ▸ readsAs_ofJson value, fun reads => (readsAs_ofJson value).unique reads⟩
  refine ⟨ofValue, fun text outcome => ?_⟩
  rw [ofJsonText]
  cases Json.Value.parse? text with
  | none => simp [eq_comm]
  | some value => simp [ofValue]

example :
    ofJson (.object [("b", .object []), ("d", .array [.string "x", .null]),
      ("c", .array [.array []]), ("a", .array [.bool true, .string "x"]), ("b", .null)]) =
        .error (.nestedValue "c") := by rfl

end ChoiceExplorer.Config
