import Criteria.Naming
import Criteria.Proofs.Lists
import Criteria.Proofs.OrderedMap
import Mathlib.Data.List.Nodup

/-!
# `Criteria.Proofs.Naming` — names that do not repeat

A supply is a 64-bit counter behind a stem. Two names are equal exactly when stem and index are, so a
supply repeats itself only after `UInt64.size` names, and a table that is filled by one supply only grows.

## Contents
- **Names.** `nameAt_inj`: stem and index can be read back from a name.
- **Runs of names.** `skip` is the supply after some names, `names` the names themselves, `label` values
  beside the names that they get.
- **Tables.** `Free` says that the names to come are unbound. `setAll_label` is the invariant step: binding
  values keeps what was there, binds every value under its own name, and leaves the later names free.
- **Binders.** `bindEach` binds a list of values; `bindEach_supply` and `bindEach_bindings` describe it.
-/

namespace Criteria

namespace NameSupply

/-! ## Names -/

/-- **Stem and index can be read back from a name.** The index has no underscore in it, so the last
    underscore of a name is the one in front of the index, whatever the stem contains. -/
theorem nameAt_inj {stem stem' : String} {i j : UInt64} :
    nameAt stem i = nameAt stem' j ↔ stem = stem' ∧ i = j := by
  refine ⟨fun h => ?_, fun ⟨hs, hi⟩ => hs ▸ hi ▸ rfl⟩
  have hdigits : ∀ n : Nat, (toString n).toList = Nat.toDigits 10 n := fun n => Nat.toList_repr
  have hchars := congrArg (fun s => s.toList.reverse) h
  simp only [nameAt, String.toList_append, hdigits, show "_".toList = ['_'] from rfl,
    List.append_assoc, List.singleton_append, List.reverse_append, List.reverse_cons] at hchars
  have hnot : ∀ n : Nat, '_' ∉ (Nat.toDigits 10 n).reverse := fun n hn =>
    Nat.underscore_not_in_toDigits (List.mem_reverse.mp hn)
  obtain ⟨hindex, hstem⟩ := eq_of_append_cons_eq (hnot _) (hnot _) hchars
  have hnat : i.toNat = j.toNat := toDigits_inj (List.reverse_inj.mp hindex)
  exact ⟨String.toList_inj.mp (List.reverse_inj.mp hstem), UInt64.toNat_inj.mp hnat⟩

/-! ## Runs of names -/

/-- The supply after `k` names are drawn. -/
def skip (s : NameSupply) (k : Nat) : NameSupply := { s with next := s.next + UInt64.ofNat k }

@[simp] theorem skip_zero (s : NameSupply) : s.skip 0 = s := by
  simp [skip]

theorem skip_skip (s : NameSupply) (j k : Nat) : (s.skip j).skip k = s.skip (j + k) := by
  simp [skip, UInt64.add_assoc]

theorem advance_eq_skip (s : NameSupply) : s.advance = s.skip 1 := rfl

theorem advance_skip (s : NameSupply) (k : Nat) : s.advance.skip k = s.skip (k + 1) := by
  rw [advance_eq_skip, skip_skip, Nat.add_comm]

/-- Names of one supply are equal only when whole turns of the counter lie between them. -/
theorem name_skip_inj {s : NameSupply} {i j : Nat} (hi : i < UInt64.size) (hj : j < UInt64.size) :
    (s.skip i).name = (s.skip j).name ↔ i = j := by
  refine ⟨fun h => ?_, fun h => h ▸ rfl⟩
  have hnext : s.next + UInt64.ofNat i = s.next + UInt64.ofNat j := (nameAt_inj.mp h).2
  have hnat := congrArg UInt64.toNat (UInt64.add_right_inj s.next |>.mp hnext)
  rwa [UInt64.toNat_ofNat_of_lt' hi, UInt64.toNat_ofNat_of_lt' hj] at hnat

/-- Before the counter wraps, a name carries the index as a natural number. -/
theorem name_skip_of_lt {s : NameSupply} {k : Nat} (h : s.next.toNat + k < UInt64.size) :
    (s.skip k).name = s.stem ++ "_" ++ toString (s.next.toNat + k) := by
  have hk : k < UInt64.size := Nat.lt_of_le_of_lt (Nat.le_add_left ..) h
  have hnext : (s.next + UInt64.ofNat k).toNat = s.next.toNat + k := by
    rw [UInt64.toNat_add, UInt64.toNat_ofNat_of_lt' hk]
    exact Nat.mod_eq_of_lt h
  show s.stem ++ "_" ++ toString (s.next + UInt64.ofNat k).toNat = _
  rw [hnext]

/-- The next `k` names. -/
def names (s : NameSupply) : Nat → List String
  | 0 => []
  | k + 1 => s.name :: s.advance.names k

theorem names_eq_map (s : NameSupply) (k : Nat) :
    s.names k = (List.range k).map (fun i => (s.skip i).name) := by
  induction k generalizing s with
  | zero => rfl
  | succ k ih =>
    rw [names, ih, List.range_succ_eq_map, List.map_cons, List.map_map, skip_zero]
    refine congrArg _ (List.map_congr_left fun i _ => ?_)
    rw [advance_skip]; rfl

/-- **A supply does not repeat a name before its counter has gone round once.** -/
theorem nodup_names (s : NameSupply) {k : Nat} (hk : k ≤ UInt64.size) : (s.names k).Nodup := by
  rw [names_eq_map]
  refine List.Nodup.map_on (fun i hi j hj h => ?_) List.nodup_range
  rw [List.mem_range] at hi hj
  exact (name_skip_inj (by omega) (by omega)).mp h

/-- Values beside the names that a supply gives them, one after the other. -/
def label (s : NameSupply) : List Json → List (String × Json)
  | [] => []
  | v :: vs => (s.name, v) :: s.advance.label vs

theorem label_append (s : NameSupply) (vs ws : List Json) :
    s.label (vs ++ ws) = s.label vs ++ (s.skip vs.length).label ws := by
  induction vs generalizing s with
  | nil => simp [label]
  | cons v vs ih =>
    rw [List.cons_append, label, label, ih, advance_skip]
    rfl

theorem label_keys (s : NameSupply) (vs : List Json) :
    (s.label vs).map Prod.fst = s.names vs.length := by
  induction vs generalizing s with
  | nil => rfl
  | cons v vs ih => rw [label, List.map_cons, ih]; rfl

theorem label_values (s : NameSupply) (vs : List Json) : (s.label vs).map Prod.snd = vs := by
  induction vs generalizing s with
  | nil => rfl
  | cons v vs ih => rw [label, List.map_cons, ih]

theorem label_eq_zip (s : NameSupply) (vs : List Json) : s.label vs = (s.names vs.length).zip vs := by
  induction vs generalizing s with
  | nil => rfl
  | cons v vs ih => rw [label, ih]; rfl

end NameSupply

/-! ## Tables -/

open NameSupply

namespace Bindings

/-- Every value of a list is bound under the name beside it. -/
def Binds (t : Bindings) (es : List (String × Json)) : Prop := ∀ e ∈ es, t.get? e.1 = some e.2

theorem binds_append {t : Bindings} {es es' : List (String × Json)} :
    Binds t (es ++ es') ↔ Binds t es ∧ Binds t es' := List.forall_mem_append

theorem Binds.mono {t t' : Bindings} {es : List (String × Json)} (h : Binds t es)
    (hkeeps : t.Keeps t') : Binds t' es := fun e he => hkeeps e.1 e.2 (h e he)

/-- The next `k` names of a supply are unbound. -/
def Free (t : Bindings) (s : NameSupply) (k : Nat) : Prop := ∀ i < k, t.get? (s.skip i).name = none

theorem free_empty (s : NameSupply) (k : Nat) : Free .empty s k := fun _ _ => rfl

/-- Names that other queries draw leave the later ones free. -/
theorem Free.skip {t : Bindings} {s : NameSupply} {j k : Nat} (h : Free t s (j + k)) :
    Free t (s.skip j) k := by
  intro i hi
  rw [skip_skip]
  exact h (j + i) (by omega)

/-- Binding the next name keeps every value and leaves the later names free. -/
theorem Free.set {t : Bindings} {s : NameSupply} {k : Nat} (h : Free t s (k + 1))
    (hk : k + 1 ≤ UInt64.size) (v : Json) : Free (t.set s.name v) s.advance k := by
  intro i hi
  have hne : ¬ s.name = (s.skip (i + 1)).name := by
    intro he
    rw [show s.name = (s.skip 0).name by rw [skip_zero]] at he
    exact absurd ((name_skip_inj (by omega) (by omega)).mp he) (by omega)
  rw [advance_skip, OrderedMap.get?_set, if_neg hne]
  exact h (i + 1) (by omega)

/-- **The invariant step of a table.** While the counter has not gone round, binding values keeps every
    binding there was, binds each value under the name drawn for it, and leaves the later names free. -/
theorem setAll_label {t : Bindings} {s : NameSupply} {k : Nat} (vs : List Json)
    (h : Free t s (vs.length + k)) (hk : vs.length + k ≤ UInt64.size) :
    t.Keeps (t.setAll (s.label vs)) ∧ Binds (t.setAll (s.label vs)) (s.label vs) ∧
      Free (t.setAll (s.label vs)) (s.skip vs.length) k := by
  induction vs generalizing t s with
  | nil => exact ⟨.refl t, fun _ he => absurd he List.not_mem_nil, h.skip⟩
  | cons v vs ih =>
    rw [List.length_cons, Nat.add_right_comm] at h hk
    have hunbound : t.get? s.name = none := by simpa using h 0 (by omega)
    obtain ⟨hkeeps, hbinds, hfree⟩ := ih (h.set hk v) (by omega)
    refine ⟨(OrderedMap.keeps_set v hunbound).trans hkeeps, ?_, ?_⟩
    · intro e he
      rcases List.mem_cons.mp he with rfl | he
      · exact hkeeps _ _ (OrderedMap.get?_set_self t s.name v)
      · exact hbinds e he
    · rw [advance_skip] at hfree
      exact hfree

/-- The table of freshly labelled values is the list of the labels, because no name repeats. -/
theorem ofList_label (s : NameSupply) (vs : List Json) (hk : vs.length ≤ UInt64.size) :
    OrderedMap.ofList (s.label vs) = ⟨s.label vs⟩ := by
  refine OrderedMap.ofList_eq ?_
  rw [label_keys]
  exact s.nodup_names hk

/-- The table of freshly labelled values binds each of them under its own name. -/
theorem binds_label (s : NameSupply) (vs : List Json) (hk : vs.length ≤ UInt64.size) :
    Binds ⟨s.label vs⟩ (s.label vs) := by
  have hfree : Free .empty s (vs.length + 0) := free_empty s _
  rw [← ofList_label s vs hk]
  exact (setAll_label vs hfree hk).2.1

end Bindings

/-! ## Binders -/

namespace Binder

/-- Binds values one after the other. -/
def bindEach (b : Binder) (vs : List Json) : Binder := vs.foldl (fun b v => (b.bind v).2) b

theorem bindEach_append (b : Binder) (vs ws : List Json) :
    b.bindEach (vs ++ ws) = (b.bindEach vs).bindEach ws := List.foldl_append

theorem bindEach_supply (b : Binder) (vs : List Json) :
    (b.bindEach vs).supply = b.supply.skip vs.length := by
  induction vs generalizing b with
  | nil => simp [bindEach]
  | cons v vs ih =>
    have hstep := ih (b.bind v).2
    rw [show (b.bind v).2.supply = b.supply.advance from rfl, advance_skip] at hstep
    exact hstep

theorem bindEach_bindings (b : Binder) (vs : List Json) :
    (b.bindEach vs).bindings = b.bindings.setAll (b.supply.label vs) := by
  induction vs generalizing b with
  | nil => rfl
  | cons v vs ih => exact ih (b.bind v).2

/-- A binder that starts afresh ends with exactly the labelled values. -/
theorem start_bindEach_bindings (s : NameSupply) (vs : List Json) (hk : vs.length ≤ UInt64.size) :
    ((start s).bindEach vs).bindings = ⟨s.label vs⟩ := by
  rw [bindEach_bindings]
  exact Bindings.ofList_label s vs hk

/-- Extending a table by the bindings of a fresh binder writes their labels. -/
theorem extend_start_bindEach (t : Bindings) (s : NameSupply) (vs : List Json)
    (hk : vs.length ≤ UInt64.size) :
    t.extend ((start s).bindEach vs).bindings = t.setAll (s.label vs) := by
  rw [start_bindEach_bindings s vs hk]
  rfl

end Binder

end Criteria
