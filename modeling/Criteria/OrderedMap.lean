/-!
# `Criteria.OrderedMap` — maps that remember the order of first insertion

Parameter tables, keyed results and the entries of JSON objects are maps whose order is observable:
a new key goes to the end, and a key that is already there keeps its position and takes the new
value.

## Contents
- **View.** `toList` lists the entries in order; `keys` and `values` are its two halves.
- **Positions.** `position?` is the index of a key; `get?` reads the entry at that index.
- **Writing.** `set` writes one entry, `extend` every entry of another map.
- **Lemmas.** The range of a position, and what is written under an absent key.
-/

namespace Criteria

/-- A map as the list of its entries, in order of first insertion. -/
structure OrderedMap (κ α : Type) where
  entries : List (κ × α)
  deriving DecidableEq, Repr

namespace OrderedMap

variable {κ α : Type} [DecidableEq κ]

/-- The map without entries. -/
def empty : OrderedMap κ α := ⟨[]⟩

instance : Inhabited (OrderedMap κ α) := ⟨empty⟩

/-- The entries in order of first insertion. -/
def toList (m : OrderedMap κ α) : List (κ × α) := m.entries

/-- The keys in order of first insertion. -/
def keys (m : OrderedMap κ α) : List κ := m.entries.map Prod.fst

/-- The values in the order of their keys. -/
def values (m : OrderedMap κ α) : List α := m.entries.map Prod.snd

/-- The number of entries. -/
def size (m : OrderedMap κ α) : Nat := m.entries.length

/-- Whether the map has no entries. -/
def isEmpty (m : OrderedMap κ α) : Bool := m.entries.isEmpty

/-! ## Positions -/

/-- The position of a key. -/
def position? (m : OrderedMap κ α) (key : κ) : Option Nat :=
  m.entries.findIdx? (fun e => e.1 = key)

/-- A position is the index of an entry. -/
theorem position?_lt {m : OrderedMap κ α} {key : κ} {i : Nat} (h : m.position? key = some i) :
    i < m.size := by
  obtain ⟨hlt, _⟩ := List.findIdx?_eq_some_iff_getElem.mp h
  exact hlt

/-- The value under a key. -/
def get? (m : OrderedMap κ α) (key : κ) : Option α :=
  (m.position? key).bind fun i => m.entries[i]?.map Prod.snd

/-- Whether a key has a value. -/
def contains (m : OrderedMap κ α) (key : κ) : Bool := (m.position? key).isSome

/-! ## Writing -/

/-- Writes an entry: in place when the key is there, at the end when it is not. -/
def set (m : OrderedMap κ α) (key : κ) (value : α) : OrderedMap κ α :=
  match m.position? key with
  | some i => ⟨m.entries.set i (key, value)⟩
  | none => ⟨m.entries ++ [(key, value)]⟩

/-- Writes the entries of a list one after the other. -/
def setAll (m : OrderedMap κ α) (entries : List (κ × α)) : OrderedMap κ α :=
  entries.foldl (fun m e => m.set e.1 e.2) m

/-- Writes every entry of another map. -/
def extend (m other : OrderedMap κ α) : OrderedMap κ α := m.setAll other.entries

/-- The map of a list of entries, written in order. -/
def ofList (entries : List (κ × α)) : OrderedMap κ α := empty.setAll entries

/-- A key that is absent has no position. -/
theorem position?_eq_none_iff {m : OrderedMap κ α} {key : κ} :
    m.position? key = none ↔ key ∉ m.keys := by
  simp only [position?, keys, List.findIdx?_eq_none_iff, decide_eq_false_iff_not, List.mem_map,
    not_exists, not_and]

/-- Writing an absent key appends its entry. -/
theorem toList_set_of_not_mem {m : OrderedMap κ α} {key : κ} (value : α) (h : key ∉ m.keys) :
    (m.set key value).toList = m.toList ++ [(key, value)] := by
  simp [set, toList, position?_eq_none_iff.mpr h]

/-- Extending by the empty map changes nothing. -/
@[simp] theorem extend_empty (m : OrderedMap κ α) : m.extend empty = m := rfl

end OrderedMap

end Criteria
