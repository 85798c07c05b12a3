import ChoiceExplorer.Proofs.AgreeingSources

/-!
# Tables and their entries

A table is known by its look-ups: each entry is found under its key, and two tables in which
the same is found are equal.  A table made of a list of entries holds the last one of each key.
-/

namespace ChoiceExplorer.Table

variable {α : Type}

/-- Of the entries with a key the last one has a value. -/
def IsLast (entries : List (String × α)) (key : String) (value : α) : Prop :=
  ∃ before after, entries = before ++ (key, value) :: after ∧ ∀ later ∈ after, later.1 ≠ key

theorem IsLast.mem {entries : List (String × α)} {key : String} {value : α}
    (last : IsLast entries key value) : (key, value) ∈ entries := by
  obtain ⟨before, after, rfl, -⟩ := last
  exact List.mem_append_right before List.mem_cons_self

theorem get?_ofList_eq_some_iff {entries : List (String × α)} {key : String} {value : α} :
    (ofList entries).get? key = some value ↔ IsLast entries key value := by
  rw [get?_ofList, List.getLast?_filter, Option.map_eq_some_iff]
  constructor
  · rintro ⟨⟨name, held⟩, found, rfl⟩
    obtain ⟨named, after, before, parts, others⟩ := List.find?_eq_some_iff_append.mp found
    obtain rfl : name = key := of_decide_eq_true named
    refine ⟨before.reverse, after.reverse, ?_, fun later member => ?_⟩
    · rw [← List.reverse_reverse entries, parts]
      simp
    · simpa using others later (List.mem_reverse.mp member)
  · rintro ⟨before, after, rfl, others⟩
    refine ⟨(key, value), List.find?_eq_some_iff_append.mpr ⟨by simp, ?_⟩, rfl⟩
    refine ⟨after.reverse, before.reverse, by simp, fun later member => ?_⟩
    simpa using others later (List.mem_reverse.mp member)

theorem lookup_eq_none {key : String} {entries : List (String × α)}
    (others : ∀ entry ∈ entries, entry.1 ≠ key) : lookup key entries = none := by
  induction entries with
  | nil => rfl
  | cons first rest ih =>
      obtain ⟨here, further⟩ := List.forall_mem_cons.mp others
      rw [lookup, if_neg here, ih further]

theorem lookup_eq_some_iff {entries : List (String × α)}
    (sorted : entries.Pairwise fun first second => first.1 < second.1) {key : String} {value : α} :
    lookup key entries = some value ↔ (key, value) ∈ entries := by
  induction entries with
  | nil => simp [lookup]
  | cons first rest ih =>
      obtain ⟨below, sorted⟩ := List.pairwise_cons.mp sorted
      rw [lookup, List.mem_cons]
      split
      · rename_i same
        have unique : (key, value) ∉ rest := by
          intro member
          have after := below _ member
          rw [same] at after
          exact String.lt_irrefl key after
        simp [unique, Prod.ext_iff, same, eq_comm]
      · rename_i other
        have notFirst : (key, value) ≠ first := fun same => other (same ▸ rfl)
        simp [ih sorted, notFirst]

/-- What is found under a key is the entry with this key. -/
theorem get?_eq_some_iff {table : Table α} {key : String} {value : α} :
    table.get? key = some value ↔ (key, value) ∈ table.entries :=
  lookup_eq_some_iff table.sorted

theorem nodup_entries (table : Table α) : table.entries.Nodup := by
  refine table.sorted.imp fun {entry other} before same => ?_
  rw [same] at before
  exact String.lt_irrefl _ before

/-- Tables with the same look-ups are equal. -/
theorem eq_of_get?_eq {first second : Table α}
    (same : ∀ key, first.get? key = second.get? key) : first = second := by
  have members : ∀ entry, entry ∈ first.entries ↔ entry ∈ second.entries := by
    rintro ⟨key, value⟩
    rw [← get?_eq_some_iff, ← get?_eq_some_iff, same]
  have permuted : first.entries.Perm second.entries :=
    (List.perm_ext_iff_of_nodup first.nodup_entries second.nodup_entries).mpr members
  have entries : first.entries = second.entries := by
    refine permuted.eq_of_pairwise ?_ first.sorted second.sorted
    intro entry other _ _ before after
    exact absurd (String.lt_trans before after) (String.lt_irrefl _)
  cases first
  cases second
  cases entries
  rfl

end ChoiceExplorer.Table
