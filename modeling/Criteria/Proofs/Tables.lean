import Criteria.Proofs.OrderedMap

/-!
# `Criteria.Proofs.Tables` — tables are what was written into them

A table starts empty. Entries are written into it one at a time, and whole tables are added to it that were made in the
same way. Whatever its history, a table shows the writes in a fixed form: each key once, where it was first written,
with the value that was last written.

Tables are kept in two ways. An `OrderedMap`, such as the `Bindings` of a query, has its entries only and looks through
them for a key. An `IndexedMap` also has the position of every key, and writing has to keep both in step. The two show
the same.

## Contents
- **Recipes.** `Recipe` says how a table is made, `Recipe.writes` what is written on the way; `Recipe.table` and
  `Recipe.indexed` make it.
- **Runs.** What holds of every table that is made: it is the table of its writes (`table_eq_ofList`), with or without
  an index (`toOrderedMap_indexed`), and its index is filled in the order of its keys (`index_indexed`).
- **Observations.** `Tabulates`: what a table shows of the writes.
- **Result.** `tables_follow_writes`.
-/

namespace Criteria

variable {κ α : Type}

/-! ## Recipes -/

/-- How a table is made: from the empty one, by writing entries and by adding tables that are made likewise. -/
inductive Recipe (κ α : Type) where
  | empty
  | set (r : Recipe κ α) (key : κ) (value : α)
  | extend (r other : Recipe κ α)

namespace Recipe

/-- All writes in their order. A table that is added brings its own. -/
def writes : Recipe κ α → List (κ × α)
  | .empty => []
  | .set r key value => r.writes ++ [(key, value)]
  | .extend r other => r.writes ++ other.writes

variable [DecidableEq κ]

/-- The table without an index. -/
def table : Recipe κ α → OrderedMap κ α
  | .empty => .empty
  | .set r key value => r.table.set key value
  | .extend r other => r.table.extend other.table

/-- The table with an index of its keys. -/
def indexed : Recipe κ α → IndexedMap κ α
  | .empty => .empty
  | .set r key value => r.indexed.set key value
  | .extend r other => r.indexed.extend other.indexed

/-! ## Runs -/

theorem nodup_keys_table (r : Recipe κ α) : r.table.keys.Nodup := by
  induction r with
  | empty => exact List.nodup_nil
  | set r key value ih => exact OrderedMap.nodup_keys_set ih key value
  | extend r other ih _ => exact OrderedMap.nodup_keys_setAll ih other.table.entries

/-- **A table is determined by its writes.** A table that is added has lost writes that were overwritten in it, but
    these would be overwritten here as well. -/
theorem table_eq_ofList (r : Recipe κ α) : r.table = .ofList r.writes := by
  induction r with
  | empty => rfl
  | set r key value ih =>
    rw [table, ih, writes, OrderedMap.ofList_append]
    rfl
  | extend r other ih iho =>
    have hempty : (OrderedMap.empty : OrderedMap κ α).keys.Nodup := List.nodup_nil
    have hother : r.table.extend (.ofList other.writes) = r.table.setAll other.writes :=
      OrderedMap.extend_setAll r.nodup_keys_table hempty other.writes
    rw [table, iho, hother, ih, writes, OrderedMap.ofList_append]

theorem toOrderedMap_indexed (r : Recipe κ α) : r.indexed.toOrderedMap = r.table := by
  induction r with
  | empty => rfl
  | set r key value ih => rw [indexed, IndexedMap.toOrderedMap_set, ih, table]
  | extend r other ih iho => rw [indexed, IndexedMap.toOrderedMap_extend, ih, iho, table]

theorem nodup_keys_indexed (r : Recipe κ α) : r.indexed.keys.Nodup := by
  rw [r.toOrderedMap_indexed]
  exact r.nodup_keys_table

theorem index_indexed (r : Recipe κ α) : r.indexed.index = r.indexed.keys.zipIdx.reverse := by
  induction r with
  | empty => rfl
  | set r key value ih => exact IndexedMap.index_set ih key value
  | extend r other ih _ => exact IndexedMap.index_extend ih other.indexed

/-- What the index holds for a key is where the key stands. -/
theorem mem_index_iff (r : Recipe κ α) {key : κ} {i : Nat} :
    (key, i) ∈ r.indexed.index ↔ r.indexed.keys[i]? = some key := by
  rw [r.index_indexed, List.mem_reverse, List.mem_zipIdx_iff_getElem?]

theorem lookup_of_mem_index (r : Recipe κ α) {p : κ × Nat} (h : p ∈ r.indexed.index) :
    r.indexed.index.lookup p.1 = some p.2 := by
  rw [r.indexed.located, OrderedMap.position?_eq_some_iff r.nodup_keys_indexed]
  exact r.mem_index_iff.mp h

/-- Tables with the same keys have the same index. -/
theorem index_eq_of_keys {r r' : Recipe κ α} (h : r.indexed.keys = r'.indexed.keys) :
    r.indexed.index = r'.indexed.index := by
  rw [r.index_indexed, r'.index_indexed, h]

theorem indexed_eq_iff {r r' : Recipe κ α} : r.indexed = r'.indexed ↔ r.indexed.toList = r'.indexed.toList := by
  constructor
  · intro h
    rw [h]
  · intro hentries
    have hindex : r.indexed.index = r'.indexed.index := index_eq_of_keys (congrArg (List.map Prod.fst) hentries)
    exact IndexedMap.eq_of_entries_of_index hentries hindex

/-- The index is the same whenever the table without one is. -/
theorem indexed_eq_of_table (r r' : Recipe κ α) (h : r.table = r'.table) : r.indexed = r'.indexed := by
  rw [← r.toOrderedMap_indexed, ← r'.toOrderedMap_indexed] at h
  exact indexed_eq_iff.mpr (congrArg OrderedMap.toList h)

theorem sameIndex_self (r : Recipe κ α) : IndexedMap.sameIndex r.indexed.index r.indexed.index = true := by
  rw [IndexedMap.sameIndex, beq_self_eq_true, Bool.true_and, List.all_eq_true]
  intro p hp
  rw [r.lookup_of_mem_index hp, beq_self_eq_true]

/-- Tables are compared by their entries. The indices never make a difference, since the keys are among the entries. -/
theorem indexed_beq_iff [BEq α] {r r' : Recipe κ α} :
    (r.indexed == r'.indexed) = true ↔ (r.indexed.toList == r'.indexed.toList) = true := by
  have hbeq : (r.indexed == r'.indexed) =
      (r.indexed.toList == r'.indexed.toList && IndexedMap.sameIndex r.indexed.index r'.indexed.index) := rfl
  rw [hbeq, Bool.and_eq_true, and_iff_left_iff_imp]
  intro hentries
  rw [← index_eq_of_keys (OrderedMap.keys_eq_of_beq hentries)]
  exact r.sameIndex_self

end Recipe

/-! ## Observations -/

section Observations

variable [DecidableEq κ]

/-- The value that is written last under a key. -/
def lastWritten (ws : List (κ × α)) (key : κ) : Option α := (ws.filter fun w => w.1 = key).getLast?.map Prod.snd

/-- What a table shows of the writes that have made it. -/
structure Tabulates (m : IndexedMap κ α) (ws : List (κ × α)) : Prop where
  distinct : m.keys.Nodup
  /-- Keys stand in the order in which they were first written. -/
  order : m.keys = (ws.map Prod.fst).eraseDups
  reading : ∀ key, m.get? key = lastWritten ws key
  absent : ∀ key, (m.get? key = none ↔ m.contains key = false) ∧ (m.contains key = false ↔ key ∉ m.keys)
  /-- Every position that is stored is that of an entry, and the entry has the key that it is stored for. -/
  stored : ∀ p ∈ m.index, ∃ h : p.2 < m.entries.length, m.entries[p.2].1 = p.1
  /-- The entries are the keys beside what is read under them. -/
  listing : m.toList.map (fun e => (e.1, some e.2)) = m.keys.map fun key => (key, m.get? key)

theorem tabulates_indexed (r : Recipe κ α) : Tabulates r.indexed r.writes := by
  have hmap : r.indexed.toOrderedMap = .ofList r.writes := r.toOrderedMap_indexed.trans r.table_eq_ofList
  constructor
  case distinct => exact r.nodup_keys_indexed
  case order =>
    rw [hmap, OrderedMap.keys_ofList]
  case reading =>
    intro key
    rw [IndexedMap.get?_eq, hmap, OrderedMap.ofList, OrderedMap.get?_setAll, OrderedMap.get?_empty, Option.or_none]
    rfl
  case absent =>
    intro key
    have hmem : r.indexed.contains key = false ↔ key ∉ r.indexed.keys := by
      rw [IndexedMap.contains_eq, Bool.eq_false_iff, ne_eq, OrderedMap.contains_iff]
    rw [hmem, IndexedMap.get?_eq, OrderedMap.get?_eq_none_iff]
    exact ⟨.rfl, .rfl⟩
  case stored =>
    intro p hp
    -- what the index says is where the key stands among the entries
    have hkey : (r.indexed.entries.map Prod.fst)[p.2]? = some p.1 := r.mem_index_iff.mp hp
    obtain ⟨h, hkey⟩ := List.getElem?_eq_some_iff.mp hkey
    rw [List.getElem_map] at hkey
    exact ⟨_, hkey⟩
  case listing =>
    rw [OrderedMap.keys, List.map_map]
    refine List.map_congr_left fun e he => ?_
    have hget := (OrderedMap.mem_toList_iff r.nodup_keys_indexed).mp he
    rw [Function.comp_apply, IndexedMap.get?_eq, hget]

end Observations

/-! ## Result -/

/-- **Tables follow their writes**, in whatever way they were made.

    - A table has each key once, in the order in which the keys were first written, and the value that was last written
      under it; there is no value exactly when the table does not contain the key. Every position in the index is that
      of an entry (`Tabulates`).
    - Without its index, it is the table that only looks through its entries.
    - Two tables are the same, and compare as the same, exactly when their lists of entries are: the index adds nothing.
    - Adding tables is associative. Adding the empty table, adding to the empty table and adding a table to itself leave
      a table as it is. -/
theorem tables_follow_writes [DecidableEq κ] [BEq α] (r s t : Recipe κ α) :
    Tabulates r.indexed r.writes ∧
      r.indexed.toOrderedMap = r.table ∧
      (r.indexed = s.indexed ↔ r.indexed.toList = s.indexed.toList) ∧
      ((r.indexed == s.indexed) = true ↔ (r.indexed.toList == s.indexed.toList) = true) ∧
      (r.indexed.extend s.indexed).extend t.indexed = r.indexed.extend (s.indexed.extend t.indexed) ∧
      IndexedMap.empty.extend r.indexed = r.indexed ∧
      r.indexed.extend .empty = r.indexed ∧
      r.indexed.extend r.indexed = r.indexed := by
  have hassoc := OrderedMap.extend_assoc r.nodup_keys_table s.nodup_keys_table t.table
  refine ⟨tabulates_indexed r, r.toOrderedMap_indexed, Recipe.indexed_eq_iff, Recipe.indexed_beq_iff, ?_, ?_, rfl, ?_⟩
  · exact Recipe.indexed_eq_of_table ((r.extend s).extend t) (r.extend (s.extend t)) hassoc
  · exact Recipe.indexed_eq_of_table (Recipe.empty.extend r) r (OrderedMap.empty_extend r.nodup_keys_table)
  · exact Recipe.indexed_eq_of_table (r.extend r) r (OrderedMap.extend_self r.nodup_keys_table)

/-- An overwritten key keeps its place, also when the value comes from a table that is added. -/
example :
    let added : Recipe String Nat := .set (.set .empty "c" 4) "a" 5
    let m := (Recipe.extend (.set (.set (.set .empty "b" 2) "a" 1) "b" 3) added).indexed
    m.toList = [("b", 3), ("a", 5), ("c", 4)] ∧ m.index = [("c", 2), ("a", 1), ("b", 0)] := by
  decide

end Criteria
