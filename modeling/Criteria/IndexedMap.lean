import Criteria.OrderedMap

/-!
# `Criteria.IndexedMap` — ordered maps with an index of their keys

Looking a key up in an `OrderedMap` goes through the entries. An `IndexedMap` also keeps the position of each
key, so that a look-up asks the index and then goes to the entry at once. The index is only of use while it is
right, and so it comes with the proof that it is.

## Contents
- **Index.** `IndexedMap`, whose field `located` says that the index gives the position of every key. So a
  position that it gives is the position of an entry (`lt_of_lookup`).
- **Reading.** `get?` and `contains`.
- **Writing.** `set` replaces a value in place (`replace`) or adds an entry at the end (`push`); `extend` writes every
  entry of another map.
- **Comparing.** Maps are compared by their entries and by what their indices hold.
-/

namespace Criteria

/-- An ordered map and the positions of its keys. -/
structure IndexedMap (κ α : Type) [DecidableEq κ] extends OrderedMap κ α where
  /-- The position of each key; only the first entry for a key counts. -/
  index : List (κ × Nat)
  located : ∀ key, index.lookup key = toOrderedMap.position? key

namespace OrderedMap

variable {κ α : Type} [DecidableEq κ]

/-- The positions depend on the keys alone. -/
theorem position?_congr {m m' : OrderedMap κ α} (h : m'.keys = m.keys) (key : κ) :
    m'.position? key = m.position? key := by
  have hkeys : ∀ n : OrderedMap κ α, n.position? key = n.keys.findIdx? (fun k => k = key) := by
    intro n
    rw [keys, List.findIdx?_map]
    rfl
  rw [hkeys, hkeys, h]

omit [DecidableEq κ] in
/-- A new value for an entry leaves the keys as they are. -/
theorem keys_replace (m : OrderedMap κ α) (i : Nat) (h : i < m.entries.length) (value : α) :
    keys ⟨m.entries.set i (m.entries[i].1, value)⟩ = m.keys := by
  have hlt : i < (m.entries.map Prod.fst).length := by simpa using h
  have hkey : m.entries[i].1 = (m.entries.map Prod.fst)[i] := by rw [List.getElem_map]
  rw [keys, List.map_set, hkey, List.set_getElem_self]
  rfl

/-- An entry at the end is the position of its key, unless the key has one before. -/
theorem position?_push (m : OrderedMap κ α) (key other : κ) (value : α) :
    position? ⟨m.entries ++ [(key, value)]⟩ other =
      (m.position? other).or (if key = other then some m.size else none) := by
  by_cases h : key = other <;> simp [position?, size, List.findIdx?_append, h]

end OrderedMap

namespace IndexedMap

variable {κ α : Type} [DecidableEq κ]

/-- The map without entries. -/
def empty : IndexedMap κ α := { OrderedMap.empty with index := [], located := fun _ => rfl }

instance : Inhabited (IndexedMap κ α) := ⟨empty⟩

/-- A position in the index is the position of an entry. -/
theorem lt_of_lookup (m : IndexedMap κ α) {key : κ} {i : Nat} (h : m.index.lookup key = some i) :
    i < m.entries.length :=
  OrderedMap.position?_lt ((m.located key).symm.trans h)

/-! ## Reading -/

/-- The value under a key. -/
def get? (m : IndexedMap κ α) (key : κ) : Option α :=
  match h : m.index.lookup key with
  | some i => some (m.entries.get ⟨i, m.lt_of_lookup h⟩).2
  | none => none

/-- Whether a key has a value. -/
def contains (m : IndexedMap κ α) (key : κ) : Bool := (m.index.lookup key).isSome

/-! ## Writing -/

/-- Replaces the value of an entry. -/
def replace (m : IndexedMap κ α) (i : Nat) (h : i < m.entries.length) (value : α) : IndexedMap κ α where
  entries := m.entries.set i (m.entries[i].1, value)
  index := m.index
  located key := by
    rw [m.located key]
    exact (OrderedMap.position?_congr (m.keys_replace i h value) key).symm

/-- Adds an entry for a key that the index does not know. -/
def push (m : IndexedMap κ α) (key : κ) (h : m.index.lookup key = none) (value : α) : IndexedMap κ α where
  entries := m.entries ++ [(key, value)]
  index := (key, m.size) :: m.index
  located other := by
    rw [m.position?_push key other value, ← m.located other, List.lookup_cons]
    by_cases hother : key = other
    · subst hother
      simp [h]
    · have hne : (other == key) = false := by simpa using Ne.symm hother
      simp [hne, hother]

/-- Writes an entry: in place when the key is there, at the end when it is not. -/
def set (m : IndexedMap κ α) (key : κ) (value : α) : IndexedMap κ α :=
  match h : m.index.lookup key with
  | some i => m.replace i (m.lt_of_lookup h) value
  | none => m.push key h value

/-- Writes every entry of another map. -/
def extend (m other : IndexedMap κ α) : IndexedMap κ α := other.entries.foldl (fun m e => m.set e.1 e.2) m

/-! ## Comparing -/

/-- Whether two indices hold the same keys at the same positions, in whatever order they came into them. -/
def sameIndex (index other : List (κ × Nat)) : Bool :=
  index.length == other.length && index.all fun p => other.lookup p.1 == some p.2

instance [BEq α] : BEq (IndexedMap κ α) := ⟨fun m m' => m.entries == m'.entries && sameIndex m.index m'.index⟩

end IndexedMap

end Criteria
