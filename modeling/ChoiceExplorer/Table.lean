/-!
# Sorted tables

A table holds one value per key, ordered by the keys' code points.  The order
is part of the type, so two tables with the same look-ups are equal.
-/

namespace ChoiceExplorer

/-- Values under distinct text keys, in the order of the keys. -/
structure Table (α : Type) where
  entries : List (String × α)
  sorted : entries.Pairwise fun first second => first.1 < second.1

namespace Table

variable {α : Type}

instance [DecidableEq α] : DecidableEq (Table α) := fun first second =>
  decidable_of_iff (first.entries = second.entries)
    ⟨fun h => by cases first; cases second; cases h; rfl, fun h => by rw [h]⟩

def empty : Table α := ⟨[], .nil⟩

def lookup (key : String) : List (String × α) → Option α
  | [] => none
  | entry :: rest => if entry.1 = key then some entry.2 else lookup key rest

def get? (table : Table α) (key : String) : Option α := lookup key table.entries

def keys (table : Table α) : List String := table.entries.map Prod.fst

def contains (table : Table α) (key : String) : Bool := (table.get? key).isSome

def insertEntry (key : String) (value : α) : List (String × α) → List (String × α)
  | [] => [(key, value)]
  | entry :: rest =>
      if key < entry.1 then (key, value) :: entry :: rest
      else if entry.1 < key then entry :: insertEntry key value rest
      else (key, value) :: rest

theorem mem_insertEntry {key : String} {value : α} {entry : String × α}
    {entries : List (String × α)} (h : entry ∈ insertEntry key value entries) :
    entry = (key, value) ∨ entry ∈ entries := by
  induction entries with
  | nil => simpa [insertEntry] using h
  | cons first rest ih =>
      unfold insertEntry at h
      split at h
      · simpa using h
      · split at h
        · rcases List.mem_cons.1 h with rfl | later
          · exact .inr List.mem_cons_self
          · rcases ih later with same | old
            · exact .inl same
            · exact .inr (List.mem_cons_of_mem _ old)
        · rcases List.mem_cons.1 h with same | later
          · exact .inl same
          · exact .inr (List.mem_cons_of_mem _ later)

theorem eq_of_not_lt {first second : String} (h : ¬first < second) (h' : ¬second < first) :
    first = second :=
  String.le_antisymm (Std.not_lt.1 h') (Std.not_lt.1 h)

theorem sorted_insertEntry (key : String) (value : α) {entries : List (String × α)}
    (sorted : entries.Pairwise fun first second => first.1 < second.1) :
    (insertEntry key value entries).Pairwise fun first second => first.1 < second.1 := by
  induction entries with
  | nil => simp [insertEntry]
  | cons first rest ih =>
      obtain ⟨below, sorted⟩ := List.pairwise_cons.1 sorted
      unfold insertEntry
      split
      · rename_i before
        refine List.pairwise_cons.2 ⟨fun entry member => ?_, List.pairwise_cons.2 ⟨below, sorted⟩⟩
        rcases List.mem_cons.1 member with rfl | later
        · exact before
        · exact String.lt_trans before (below entry later)
      · split
        · rename_i after
          refine List.pairwise_cons.2 ⟨fun entry member => ?_, ih sorted⟩
          rcases mem_insertEntry member with rfl | old
          · exact after
          · exact below entry old
        · rename_i notBefore notAfter
          have same : key = first.1 := eq_of_not_lt notBefore notAfter
          exact List.pairwise_cons.2 ⟨fun entry member => same ▸ below entry member, sorted⟩

def insert (table : Table α) (key : String) (value : α) : Table α :=
  ⟨insertEntry key value table.entries, sorted_insertEntry key value table.sorted⟩

def erase (table : Table α) (key : String) : Table α :=
  ⟨table.entries.filter fun entry => entry.1 != key, table.sorted.filter _⟩

/-- The table of the given entries, a later one replacing an earlier one with the same key. -/
def ofList (entries : List (String × α)) : Table α :=
  entries.foldl (fun table entry => table.insert entry.1 entry.2) empty

@[simp] theorem get?_empty (key : String) : (empty : Table α).get? key = none := rfl

theorem lookup_insertEntry (key : String) (value : α) (entries : List (String × α))
    (asked : String) :
    lookup asked (insertEntry key value entries) =
      if asked = key then some value else lookup asked entries := by
  induction entries with
  | nil => simp [insertEntry, lookup, eq_comm]
  | cons first rest ih =>
      unfold insertEntry
      split
      · simp [lookup, eq_comm]
      · split
        · rename_i after
          by_cases same : first.1 = asked
          · have other : asked ≠ key := fun h => String.lt_irrefl key (by rwa [same, h] at after)
            simp [lookup, same, other]
          · simp only [lookup, same, if_false, ih]
        · rename_i notBefore notAfter
          have replaced : key = first.1 := eq_of_not_lt notBefore notAfter
          by_cases same : asked = key
          · simp [lookup, same]
          · have other : first.1 ≠ asked := fun h => same (by rw [← h, replaced])
            simp [lookup, same, other, Ne.symm same]

theorem get?_insert (table : Table α) (key : String) (value : α) (asked : String) :
    (table.insert key value).get? asked = if asked = key then some value else table.get? asked :=
  lookup_insertEntry key value table.entries asked

end Table

end ChoiceExplorer
