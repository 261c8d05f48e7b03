import Criteria.IndexedMap

/-!
# `Criteria.Proofs.OrderedMap` — reading what was written

An `OrderedMap` is observed in two ways: by key (`get?`) and in order (`toList`). This module says what
each writing operation does to both views, so that no later proof opens `set` or `position?`.

## Contents
- **One entry.** `get?_cons` and `set_cons` follow the list of entries, where reading is looking up
  (`get?_eq_lookup`); `get?_set` is the law of reading after writing.
- **Many entries.** `get?_setAll` says which of many writes counts; `setAll_eq_append`: entries with new, distinct keys
  are appended as they are.
- **Growth.** `Keeps m m'`: `m'` reads as `m` does wherever `m` has a value; `keeps_setAll_iff` says when writing
  entries does that.
- **Order.** `keys_setAll` says where keys stand after many writes. Where no key stands twice, look-ups and positions
  agree with the list of entries, and a map is determined by its keys and what is read under them (`eq_of_get?`).
- **Extension.** Among maps in which no key stands twice, extending is associative (`extend_assoc`) and idempotent
  (`extend_self`), because it commutes with writing (`extend_set`).
- **Index.** An `IndexedMap` reads and writes as the `OrderedMap` in it.
-/

namespace Criteria.OrderedMap

variable {κ α : Type} [DecidableEq κ]

/-! ## One entry -/

@[simp] theorem get?_empty (key : κ) : (empty : OrderedMap κ α).get? key = none := rfl

/-- The first entry is at the front; every other key is one position behind its place in the rest. -/
theorem position?_cons (k key : κ) (v : α) (rest : List (κ × α)) :
    position? ⟨(k, v) :: rest⟩ key = if k = key then some 0 else (position? ⟨rest⟩ key).map (· + 1) := by
  unfold position?
  rw [List.findIdx?_cons]
  by_cases h : k = key <;> simp [h]

/-- The first entry answers for its own key; every other key is read in the rest. -/
theorem get?_cons (k key : κ) (v : α) (rest : List (κ × α)) :
    get? ⟨(k, v) :: rest⟩ key = if k = key then some v else get? ⟨rest⟩ key := by
  rw [get?, position?_cons]
  by_cases h : k = key
  · rw [if_pos h, if_pos h]
    rfl
  · rw [if_neg h, if_neg h, Option.bind_map]
    rfl

theorem get?_eq_lookup (entries : List (κ × α)) (key : κ) : get? ⟨entries⟩ key = entries.lookup key := by
  induction entries with
  | nil => rfl
  | cons e rest ih =>
    obtain ⟨k, v⟩ := e
    rw [get?_cons, ih, List.lookup_cons]
    by_cases h : k = key
    · simp [h]
    · rw [if_neg h, beq_eq_false_iff_ne.mpr (Ne.symm h)]

/-- Writing the key of the first entry replaces it; any other key is written in the rest. -/
theorem set_cons (k key : κ) (v value : α) (rest : List (κ × α)) :
    (set ⟨(k, v) :: rest⟩ key value).entries =
      if k = key then (key, value) :: rest else (k, v) :: (set ⟨rest⟩ key value).entries := by
  unfold set position?
  rw [List.findIdx?_cons]
  by_cases h : k = key
  · simp [h]
  · simp only [h, decide_false, Bool.false_eq_true, if_false]
    cases rest.findIdx? (fun e => decide (e.1 = key)) <;> simp

/-- **Reading after writing.** The written key has the new value, every other key reads as before. -/
theorem get?_set (m : OrderedMap κ α) (key other : κ) (value : α) :
    (m.set key value).get? other = if key = other then some value else m.get? other := by
  obtain ⟨entries⟩ := m
  induction entries with
  | nil => exact get?_cons key other value []
  | cons e rest ih =>
    obtain ⟨k, v⟩ := e
    have hset := set_cons k key v value rest
    rw [show set ⟨(k, v) :: rest⟩ key value = ⟨(set ⟨(k, v) :: rest⟩ key value).entries⟩ from rfl, hset]
    by_cases hk : k = key
    · subst hk
      rw [if_pos rfl, get?_cons, get?_cons]
      by_cases ho : k = other <;> simp [ho]
    · rw [if_neg hk, get?_cons, get?_cons]
      by_cases ho : k = other
      · simp [ho, show ¬ key = other from fun h => hk (ho.trans h.symm)]
      · simpa [ho] using ih

theorem get?_set_self (m : OrderedMap κ α) (key : κ) (value : α) :
    (m.set key value).get? key = some value := by
  rw [get?_set, if_pos rfl]

/-- A key without a position has no value, and a key with one has. -/
theorem get?_eq_none_iff {m : OrderedMap κ α} {key : κ} : m.get? key = none ↔ key ∉ m.keys := by
  obtain ⟨entries⟩ := m
  induction entries with
  | nil => simp [get?, position?, keys]
  | cons e rest ih =>
    obtain ⟨k, v⟩ := e
    rw [get?_cons]
    by_cases h : k = key
    · simp [h, keys]
    · simp only [if_neg h, ih, keys, List.map_cons, List.mem_cons, not_or]
      exact ⟨fun hr => ⟨fun he => h he.symm, hr⟩, fun hr => hr.2⟩

theorem contains_iff {m : OrderedMap κ α} {key : κ} : m.contains key = true ↔ key ∈ m.keys := by
  rw [contains, Option.isSome_iff_ne_none, ne_eq, position?_eq_none_iff, Decidable.not_not]

/-! ## Many entries -/

@[simp] theorem setAll_nil (m : OrderedMap κ α) : m.setAll [] = m := rfl

@[simp] theorem setAll_cons (m : OrderedMap κ α) (e : κ × α) (es : List (κ × α)) :
    m.setAll (e :: es) = (m.set e.1 e.2).setAll es := rfl

/-- Entries are written one after the other. -/
theorem setAll_append (m : OrderedMap κ α) (es es' : List (κ × α)) :
    m.setAll (es ++ es') = (m.setAll es).setAll es' := List.foldl_append

/-- **The last entry for a key counts.** -/
theorem get?_setAll (m : OrderedMap κ α) (es : List (κ × α)) (key : κ) :
    (m.setAll es).get? key = ((es.filter fun e => e.1 = key).getLast?.map Prod.snd).or (m.get? key) := by
  induction es generalizing m with
  | nil => rfl
  | cons e es ih =>
    rw [setAll_cons, ih, get?_set]
    by_cases h : e.1 = key
    · simp only [h, decide_true, List.filter_cons_of_pos, List.getLast?_cons]
      cases (es.filter fun e => e.1 = key).getLast? <;> rfl
    · simp [h]

/-- A key that is not written reads as before. -/
theorem get?_setAll_of_not_mem {m : OrderedMap κ α} {es : List (κ × α)} {key : κ}
    (h : key ∉ es.map Prod.fst) : (m.setAll es).get? key = m.get? key := by
  have hnone : es.filter (fun e => e.1 = key) = [] := by
    refine List.filter_eq_nil_iff.mpr fun e he hkey => h ?_
    exact List.mem_map.mpr ⟨e, he, of_decide_eq_true hkey⟩
  rw [get?_setAll, hnone]
  rfl

/-- Where no key is written twice, each written key has the value beside it. -/
theorem get?_setAll_of_mem {m : OrderedMap κ α} {es : List (κ × α)} (hnodup : (es.map Prod.fst).Nodup)
    {e : κ × α} (he : e ∈ es) : (m.setAll es).get? e.1 = some e.2 := by
  induction es generalizing m with
  | nil => exact absurd he List.not_mem_nil
  | cons e' es ih =>
    rw [List.map_cons, List.nodup_cons] at hnodup
    rcases List.mem_cons.mp he with rfl | he
    · rw [setAll_cons, get?_setAll_of_not_mem hnodup.1, get?_set_self]
    · exact ih hnodup.2 he

/-- **Fresh entries are appended.** Entries whose keys are distinct and absent keep their order behind
    the entries that were there. -/
theorem setAll_eq_append {m : OrderedMap κ α} {es : List (κ × α)}
    (hnodup : (es.map Prod.fst).Nodup) (hfresh : ∀ key ∈ es.map Prod.fst, key ∉ m.keys) :
    m.setAll es = ⟨m.entries ++ es⟩ := by
  induction es generalizing m with
  | nil => simp
  | cons e es ih =>
    obtain ⟨k, v⟩ := e
    rw [List.map_cons, List.nodup_cons] at hnodup
    have hk : k ∉ m.keys := hfresh k (by simp)
    have hset : m.set k v = ⟨m.entries ++ [(k, v)]⟩ := congrArg mk (toList_set_of_not_mem v hk)
    rw [setAll_cons, hset, ih hnodup.2]
    · simp
    · intro key hkey hmem
      simp only [keys, List.map_append, List.mem_append, List.map_cons, List.map_nil,
        List.mem_singleton] at hmem
      rcases hmem with hold | hnew
      · exact hfresh key (List.mem_cons_of_mem _ hkey) hold
      · exact hnodup.1 (hnew ▸ hkey)

/-- A map of entries with distinct keys is the list of these entries. -/
theorem ofList_eq {es : List (κ × α)} (hnodup : (es.map Prod.fst).Nodup) : ofList es = ⟨es⟩ :=
  setAll_eq_append hnodup (fun _ _ => List.not_mem_nil)

theorem ofList_append (es es' : List (κ × α)) : ofList (es ++ es') = (ofList es).setAll es' := setAll_append _ es es'

/-! ## Growth -/

/-- Wherever `m` has a value, `m'` has the same one. -/
def Keeps (m m' : OrderedMap κ α) : Prop := ∀ key value, m.get? key = some value → m'.get? key = some value

theorem Keeps.refl (m : OrderedMap κ α) : Keeps m m := fun _ _ h => h

theorem Keeps.trans {m₁ m₂ m₃ : OrderedMap κ α} (h₁ : Keeps m₁ m₂) (h₂ : Keeps m₂ m₃) : Keeps m₁ m₃ :=
  fun key value h => h₂ key value (h₁ key value h)

/-- Writing an absent key keeps every value. -/
theorem keeps_set {m : OrderedMap κ α} {key : κ} (value : α) (h : m.get? key = none) :
    Keeps m (m.set key value) := by
  intro other v hv
  rw [get?_set]
  by_cases ho : key = other
  · rw [ho, hv] at h; exact absurd h (by simp)
  · rw [if_neg ho]; exact hv

/-- Entries with distinct keys keep every value exactly when they repeat the values that they meet. -/
theorem keeps_setAll_iff {m : OrderedMap κ α} {es : List (κ × α)} (hnodup : (es.map Prod.fst).Nodup) :
    Keeps m (m.setAll es) ↔ ∀ e ∈ es, ∀ old, m.get? e.1 = some old → old = e.2 := by
  constructor
  · intro hkeeps e he old hold
    have hnew := hkeeps e.1 old hold
    rw [get?_setAll_of_mem hnodup he] at hnew
    exact (Option.some.inj hnew).symm
  · intro hsame key value hvalue
    by_cases hkey : key ∈ es.map Prod.fst
    · obtain ⟨e, he, rfl⟩ := List.mem_map.mp hkey
      rw [get?_setAll_of_mem hnodup he, hsame e he value hvalue]
    · rw [get?_setAll_of_not_mem hkey, hvalue]

/-! ## Order -/

/-- A new key goes to the end, and a key that is there stays where it is. -/
theorem keys_set (m : OrderedMap κ α) (key : κ) (value : α) :
    (m.set key value).keys = if key ∈ m.keys then m.keys else m.keys ++ [key] := by
  obtain ⟨entries⟩ := m
  induction entries with
  | nil => rfl
  | cons e rest ih =>
    obtain ⟨k, v⟩ := e
    simp only [keys] at ih
    simp only [keys, set_cons, List.map_cons, List.mem_cons]
    by_cases h : k = key
    · simp [h]
    · simp only [if_neg h, List.map_cons, ih, Ne.symm h, false_or]
      by_cases hkey : key ∈ rest.map Prod.fst <;> simp only [hkey, if_true, if_false, List.cons_append]

theorem nodup_keys_set {m : OrderedMap κ α} (h : m.keys.Nodup) (key : κ) (value : α) :
    (m.set key value).keys.Nodup := by
  rw [keys_set]
  split
  · exact h
  · rename_i hkey
    refine List.nodup_append.mpr ⟨h, List.pairwise_singleton _ key, ?_⟩
    rintro a ha b hb rfl
    exact hkey (List.mem_singleton.mp hb ▸ ha)

/-- Writing an entry brings in no other one. -/
theorem mem_set {m : OrderedMap κ α} {key : κ} {value : α} {e : κ × α} (h : e ∈ (m.set key value).entries) :
    e = (key, value) ∨ e ∈ m.entries := by
  unfold set at h
  split at h
  · exact (List.mem_or_eq_of_mem_set h).symm
  · exact (List.mem_append.mp h).symm.imp_left List.mem_singleton.mp

theorem nodup_keys_setAll {m : OrderedMap κ α} (h : m.keys.Nodup) (es : List (κ × α)) :
    (m.setAll es).keys.Nodup := by
  induction es generalizing m with
  | nil => exact h
  | cons e es ih => exact ih (nodup_keys_set h e.1 e.2)

/-- **Keys are in order of first insertion.** Behind the keys that were there come the new ones, each once. -/
theorem keys_setAll (m : OrderedMap κ α) (es : List (κ × α)) :
    (m.setAll es).keys = m.keys ++ ((es.map Prod.fst).removeAll m.keys).eraseDups := by
  induction es generalizing m with
  | nil => simp [List.removeAll]
  | cons e es ih =>
    rw [setAll_cons, ih, keys_set]
    by_cases h : e.1 ∈ m.keys
    · simp [h, List.removeAll]
    · have hnew : ((e :: es).map Prod.fst).removeAll m.keys = e.1 :: (es.map Prod.fst).removeAll m.keys := by
        simp [List.removeAll, h]
      have hrest : (es.map Prod.fst).removeAll (m.keys ++ [e.1]) =
          ((es.map Prod.fst).removeAll m.keys).filter fun key => !key == e.1 := by
        rw [List.removeAll, List.removeAll, List.filter_filter]
        refine List.filter_congr fun key _ => ?_
        by_cases hkey : key = e.1 <;> simp [hkey]
      rw [if_neg h, hnew, List.eraseDups_cons, hrest, List.append_assoc]
      rfl

theorem keys_ofList (es : List (κ × α)) : (ofList es).keys = (es.map Prod.fst).eraseDups := by
  have hall : (es.map Prod.fst).removeAll [] = es.map Prod.fst := by simp [List.removeAll]
  rw [ofList, keys_setAll]
  show [] ++ ((es.map Prod.fst).removeAll []).eraseDups = _
  rw [hall, List.nil_append]

/-- Where no key stands twice, looking a key up finds the entries that are listed. -/
theorem mem_toList_iff {m : OrderedMap κ α} (h : m.keys.Nodup) {key : κ} {value : α} :
    (key, value) ∈ m.toList ↔ m.get? key = some value := by
  obtain ⟨entries⟩ := m
  induction entries with
  | nil => exact ⟨fun hmem => absurd hmem List.not_mem_nil, nofun⟩
  | cons e rest ih =>
    obtain ⟨k, v⟩ := e
    obtain ⟨hk, hrest⟩ : k ∉ keys ⟨rest⟩ ∧ (keys ⟨rest⟩).Nodup := List.nodup_cons.mp h
    simp only [toList] at ih
    rw [get?_cons, toList, List.mem_cons, ih hrest]
    by_cases hkey : k = key
    · subst hkey
      simp [get?_eq_none_iff.mpr hk, eq_comm]
    · simp [hkey, Ne.symm hkey]

/-- Where no key stands twice, the position of a key is where it stands among the keys. -/
theorem position?_eq_some_iff {m : OrderedMap κ α} (h : m.keys.Nodup) {key : κ} {i : Nat} :
    m.position? key = some i ↔ m.keys[i]? = some key := by
  obtain ⟨entries⟩ := m
  induction entries generalizing i with
  | nil => simp [position?, keys]
  | cons e rest ih =>
    obtain ⟨k, v⟩ := e
    obtain ⟨hk, hrest⟩ : k ∉ keys ⟨rest⟩ ∧ (keys ⟨rest⟩).Nodup := List.nodup_cons.mp h
    rw [position?_cons]
    cases i with
    | zero => by_cases hkey : k = key <;> simp [hkey, keys]
    | succ i =>
      have hi : (keys ⟨(k, v) :: rest⟩)[i + 1]? = (keys ⟨rest⟩)[i]? := rfl
      rw [hi, ← ih hrest]
      by_cases hkey : k = key
      · subst hkey
        simp [position?_eq_none_iff.mpr hk]
      · simp [hkey]

/-- Where no key stands twice, the keys in their order and what is read under them determine a map. -/
theorem eq_of_get? {m m' : OrderedMap κ α} (hnodup : m.keys.Nodup) (hkeys : m.keys = m'.keys)
    (hget : ∀ key, m.get? key = m'.get? key) : m = m' := by
  obtain ⟨entries⟩ := m
  obtain ⟨entries'⟩ := m'
  induction entries generalizing entries' with
  | nil =>
    have hnil : entries' = [] := List.map_eq_nil_iff.mp hkeys.symm
    rw [hnil]
  | cons e rest ih =>
    obtain ⟨k, v⟩ := e
    cases entries' with
    | nil => exact absurd hkeys (List.cons_ne_nil _ _)
    | cons e' rest' =>
      obtain ⟨k', v'⟩ := e'
      obtain ⟨rfl, htails⟩ : k = k' ∧ keys ⟨rest⟩ = keys ⟨rest'⟩ := List.cons.inj hkeys
      obtain ⟨hk, hrest⟩ : k ∉ keys ⟨rest⟩ ∧ (keys ⟨rest⟩).Nodup := List.nodup_cons.mp hnodup
      have hv : v = v' := by simpa [get?_cons] using hget k
      -- under its own key the first entry hides the rest, but there the rest has nothing
      have htail : ∀ key, get? ⟨rest⟩ key = get? ⟨rest'⟩ key := by
        intro key
        by_cases hkey : k = key
        · subst hkey
          rw [get?_eq_none_iff.mpr hk, get?_eq_none_iff.mpr (htails ▸ hk)]
        · simpa [get?_cons, hkey] using hget key
      have hentries : rest = rest' := congrArg entries (ih hrest rest' htails htail)
      rw [hv, hentries]

/-- Entries that are compared equal have the same keys, however values are compared. -/
theorem keys_eq_of_beq [BEq α] {m m' : OrderedMap κ α} (h : (m.entries == m'.entries) = true) : m.keys = m'.keys := by
  obtain ⟨entries⟩ := m
  obtain ⟨entries'⟩ := m'
  induction entries generalizing entries' with
  | nil => cases entries' with
    | nil => rfl
    | cons e' rest' => exact absurd h Bool.false_ne_true
  | cons e rest ih => cases entries' with
    | nil => exact absurd h Bool.false_ne_true
    | cons e' rest' =>
      obtain ⟨he, hrest⟩ := Bool.and_eq_true _ _ ▸ h
      obtain ⟨hkey, -⟩ := Bool.and_eq_true _ _ ▸ he
      have htails : keys ⟨rest⟩ = keys ⟨rest'⟩ := ih rest' hrest
      show e.1 :: keys ⟨rest⟩ = e'.1 :: keys ⟨rest'⟩
      rw [eq_of_beq hkey, htails]

/-! ## Extension -/

theorem keys_extend (m t : OrderedMap κ α) : (m.extend t).keys = m.keys ++ (t.keys.removeAll m.keys).eraseDups :=
  keys_setAll m t.entries

/-- The map that is added answers first. -/
theorem get?_extend {m t : OrderedMap κ α} (h : t.keys.Nodup) (key : κ) :
    (m.extend t).get? key = (t.get? key).or (m.get? key) := by
  obtain ⟨entries⟩ := t
  induction entries generalizing m with
  | nil => rfl
  | cons e rest ih =>
    obtain ⟨k, v⟩ := e
    obtain ⟨hk, hrest⟩ : k ∉ keys ⟨rest⟩ ∧ (keys ⟨rest⟩).Nodup := List.nodup_cons.mp h
    have hstep : (m.extend ⟨(k, v) :: rest⟩).get? key = (get? ⟨rest⟩ key).or ((m.set k v).get? key) := ih hrest
    rw [hstep, get?_set, get?_cons]
    by_cases hkey : k = key
    · subst hkey
      simp [get?_eq_none_iff.mpr hk]
    · rw [if_neg hkey, if_neg hkey]

theorem mem_keys_extend {m t : OrderedMap κ α} (h : t.keys.Nodup) {key : κ} :
    key ∈ (m.extend t).keys ↔ key ∈ t.keys ∨ key ∈ m.keys := by
  rw [← Decidable.not_iff_not, not_or, ← get?_eq_none_iff, ← get?_eq_none_iff, ← get?_eq_none_iff,
    get?_extend h, Option.or_eq_none_iff]

/-- **Extending commutes with writing.** It makes no difference whether an entry is written into a map before it is
    added or behind it. -/
theorem extend_set {m t : OrderedMap κ α} (hm : m.keys.Nodup) (ht : t.keys.Nodup) (key : κ) (value : α) :
    m.extend (t.set key value) = (m.extend t).set key value := by
  by_cases hkey : key ∈ t.keys
  · -- the entry is replaced where it stands, so both sides have the same keys and answer alike
    have hin : key ∈ (m.extend t).keys := (mem_keys_extend ht).mpr (.inl hkey)
    have hkeys : (m.extend (t.set key value)).keys = ((m.extend t).set key value).keys := by
      rw [keys_set, if_pos hin, keys_extend, keys_extend, keys_set, if_pos hkey]
    refine eq_of_get? (nodup_keys_setAll hm _) hkeys fun other => ?_
    rw [get?_extend (nodup_keys_set ht key value), get?_set, get?_set, get?_extend ht]
    by_cases hother : key = other <;> simp [hother]
  · have hset : (t.set key value).entries = t.entries ++ [(key, value)] := toList_set_of_not_mem value hkey
    rw [extend, hset, setAll_append]
    rfl

theorem extend_setAll {m t : OrderedMap κ α} (hm : m.keys.Nodup) (ht : t.keys.Nodup) (es : List (κ × α)) :
    m.extend (t.setAll es) = (m.extend t).setAll es := by
  induction es generalizing t with
  | nil => rfl
  | cons e es ih => rw [setAll_cons, ih (nodup_keys_set ht e.1 e.2), extend_set hm ht, setAll_cons]

theorem extend_assoc {m t : OrderedMap κ α} (hm : m.keys.Nodup) (ht : t.keys.Nodup) (u : OrderedMap κ α) :
    (m.extend t).extend u = m.extend (t.extend u) := (extend_setAll hm ht u.entries).symm

theorem empty_extend {m : OrderedMap κ α} (h : m.keys.Nodup) : empty.extend m = m := ofList_eq h

theorem extend_self {m : OrderedMap κ α} (h : m.keys.Nodup) : m.extend m = m := by
  refine eq_of_get? (nodup_keys_setAll h _) ?_ fun key => ?_
  · have hnone : m.keys.removeAll m.keys = [] := by simp [List.removeAll]
    rw [keys_extend, hnone, List.eraseDups_nil, List.append_nil]
  · rw [get?_extend h]
    cases m.get? key <;> rfl

end Criteria.OrderedMap

/-! ## Index -/

namespace Criteria.IndexedMap

variable {κ α : Type} [DecidableEq κ]

/-- The index finds what a search through the entries finds. -/
theorem get?_eq (m : IndexedMap κ α) (key : κ) : m.get? key = m.toOrderedMap.get? key := by
  unfold get? OrderedMap.get?
  split
  · rename_i i h
    have hpos : m.toOrderedMap.position? key = some i := (m.located key).symm.trans h
    rw [hpos, Option.bind_some, List.getElem?_eq_getElem (m.lt_of_lookup h)]
    rfl
  · rename_i h
    have hpos : m.toOrderedMap.position? key = none := (m.located key).symm.trans h
    rw [hpos, Option.bind_none]

theorem contains_eq (m : IndexedMap κ α) (key : κ) : m.contains key = m.toOrderedMap.contains key := by
  rw [contains, OrderedMap.contains, m.located]

/-- **Writing with the index is writing.** The position that the index gives is the one that a search finds. -/
theorem toOrderedMap_set (m : IndexedMap κ α) (key : κ) (value : α) :
    (m.set key value).toOrderedMap = m.toOrderedMap.set key value := by
  unfold set OrderedMap.set
  split
  · rename_i i h
    have hpos : m.toOrderedMap.position? key = some i := (m.located key).symm.trans h
    obtain ⟨hlt, hkey, -⟩ := List.findIdx?_eq_some_iff_getElem.mp hpos
    have hkey : m.entries[i].1 = key := by simpa using hkey
    simp only [hpos, replace, hkey]
  · rename_i h
    have hpos : m.toOrderedMap.position? key = none := (m.located key).symm.trans h
    simp only [hpos, push]

theorem toOrderedMap_extend (m other : IndexedMap κ α) :
    (m.extend other).toOrderedMap = m.toOrderedMap.extend other.toOrderedMap := by
  unfold extend OrderedMap.extend
  induction other.entries generalizing m with
  | nil => rfl
  | cons e es ih => rw [List.foldl_cons, ih, toOrderedMap_set, OrderedMap.setAll_cons]

theorem eq_of_entries_of_index {m m' : IndexedMap κ α} (hentries : m.entries = m'.entries)
    (hindex : m.index = m'.index) : m = m' := by
  obtain ⟨⟨_⟩, _, _⟩ := m
  obtain ⟨⟨_⟩, _, _⟩ := m'
  obtain rfl : _ = _ := hentries
  obtain rfl : _ = _ := hindex
  rfl

/-- Positions come into the index as keys come into the map. -/
theorem index_set {m : IndexedMap κ α} (h : m.index = m.keys.zipIdx.reverse) (key : κ) (value : α) :
    (m.set key value).index = (m.set key value).keys.zipIdx.reverse := by
  unfold set
  split
  · rename_i i hi
    have hkeys : (m.replace i (m.lt_of_lookup hi) value).keys = m.keys := m.keys_replace i (m.lt_of_lookup hi) value
    rw [hkeys]
    exact h
  · rename_i hnone
    have hkeys : (m.push key hnone value).keys = m.keys ++ [key] := List.map_append
    have hsize : m.size = 0 + m.keys.length := by rw [Nat.zero_add, OrderedMap.keys, List.length_map]; rfl
    rw [hkeys, List.zipIdx_append, List.reverse_append, ← h, ← hsize]
    rfl

theorem index_extend {m : IndexedMap κ α} (h : m.index = m.keys.zipIdx.reverse) (other : IndexedMap κ α) :
    (m.extend other).index = (m.extend other).keys.zipIdx.reverse := by
  unfold extend
  induction other.entries generalizing m with
  | nil => exact h
  | cons e es ih => exact ih (index_set h e.1 e.2)

end Criteria.IndexedMap
