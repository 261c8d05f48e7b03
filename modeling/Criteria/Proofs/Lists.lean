import Mathlib.Data.List.Forall2

/-!
# `Criteria.Proofs.Lists` — lists, and what is read item by item

Facts about lists that the other modules share. Nothing here knows of queries.

## Contents
- **Parts.** A list cut at one of its items (`eq_around`, `eq_between`, `eq_of_append_cons_eq`).
- **Positions.** An item that is appended or replaced, and the partners of two lists side by side.
- **Digits.** A number is determined by its decimal digits.
- **Traversals that may fail.** `mapM_eq_ok_iff` and `mapM_eq_some_iff`: a list is read item by item. `mapM_around`: an
  item may be replaced by one that is read alike. `foldlM_keeps`: what each step keeps, a run keeps.
-/

namespace Criteria

/-! ## Parts -/

section Parts

variable {α : Type} {xs : List α} {x y : α} {i : Nat}

/-- A list is what stands around one of its items. -/
theorem eq_around (xs : List α) (i : Nat) (h : xs[i]? = some x) : xs = xs.take i ++ x :: xs.drop (i + 1) := by
  obtain ⟨hi, rfl⟩ := List.getElem?_eq_some_iff.mp h
  rw [List.getElem_cons_drop, List.take_append_drop]

/-- A list of two items or more is what stands between its ends. -/
theorem eq_between (hfirst : xs.head? = some x) (hlast : xs.getLast? = some y) (htail : xs.tail ≠ []) :
    xs = x :: xs.tail.dropLast ++ [y] := by
  obtain ⟨rest, rfl⟩ := List.head?_eq_some_iff.mp hfirst
  have hrest : rest ≠ [] := htail
  rw [List.getLast?_cons_of_ne_nil hrest] at hlast
  rw [List.tail_cons, List.cons_append, List.dropLast_append_getLast? y hlast]

/-- A list is cut at the first occurrence of an item in one way only. -/
theorem eq_of_append_cons_eq {as bs cs ds : List α} (ha : x ∉ as) (hb : x ∉ bs)
    (h : as ++ x :: cs = bs ++ x :: ds) : as = bs ∧ cs = ds := by
  induction as generalizing bs with
  | nil =>
    -- `x` is at the head of one list, so it must be at the head of the other
    cases bs with
    | nil => exact ⟨rfl, (List.cons.inj h).2⟩
    | cons b bs => exact absurd (List.cons.inj h).1 (fun he => hb (he ▸ List.mem_cons_self))
  | cons a as ih =>
    rw [List.mem_cons, not_or] at ha
    cases bs with
    | nil => exact absurd (List.cons.inj h).1.symm ha.1
    | cons b bs =>
      obtain ⟨rfl, htail⟩ := List.cons.inj h
      obtain ⟨rfl, rfl⟩ := ih ha.2 (fun hx => hb (List.mem_cons_of_mem _ hx)) htail
      exact ⟨rfl, rfl⟩

/-! ## Positions -/

/-- An entry of a longer list was there before, or it is the last one. -/
theorem getElem?_concat_eq_some (h : (xs ++ [x])[i]? = some y) : xs[i]? = some y ∨ (i = xs.length ∧ y = x) := by
  rw [List.getElem?_append] at h
  split at h
  · exact .inl h
  · rw [List.getElem?_singleton] at h
    split at h
    · exact .inr ⟨by omega, (Option.some.inj h).symm⟩
    · cases h

/-- Replacing an entry changes what is read at its place, and nowhere else. -/
theorem getElem?_set_of_some (h : xs[i]? = some y) (j : Nat) :
    (xs.set i x)[j]? = if i = j then some x else xs[j]? := by
  rw [List.getElem?_set, if_pos (List.getElem?_eq_some_iff.mp h).1]

end Parts

/-- Each member of either list has a partner in the other. -/
theorem exists_of_forall₂ {α β : Type} {R : α → β → Prop} {as : List α} {bs : List β} (h : List.Forall₂ R as bs) :
    (∀ a ∈ as, ∃ b ∈ bs, R a b) ∧ ∀ b ∈ bs, ∃ a ∈ as, R a b := by
  induction h with
  | nil => exact ⟨nofun, nofun⟩
  | cons hab _ ih =>
    obtain ⟨ihas, ihbs⟩ := ih
    constructor
    · refine List.forall_mem_cons.mpr ⟨⟨_, List.mem_cons_self, hab⟩, fun a ha => ?_⟩
      obtain ⟨b, hb, hR⟩ := ihas a ha
      exact ⟨b, List.mem_cons_of_mem _ hb, hR⟩
    · refine List.forall_mem_cons.mpr ⟨⟨_, List.mem_cons_self, hab⟩, fun b hb => ?_⟩
      obtain ⟨a, ha, hR⟩ := ihbs b hb
      exact ⟨a, List.mem_cons_of_mem _ ha, hR⟩

/-! ## Digits -/

/-- A number is determined by its decimal digits. -/
theorem toDigits_inj {m n : Nat} (h : Nat.toDigits 10 m = Nat.toDigits 10 n) : m = n := by
  rw [← Nat.ofDigitChars_ten_toDigits (n := m), h, Nat.ofDigitChars_ten_toDigits]

/-! ## Traversals that may fail -/

section Traversal

variable {ε α β γ : Type}

theorem map_eq_ok_iff {x : Except ε α} {g : α → β} {b : β} : x.map g = .ok b ↔ ∃ a, x = .ok a ∧ g a = b := by
  cases x <;> simp [Except.map]

theorem mapM_cons_eq_ok_iff {read : α → Except ε β} {a : α} {as : List α} {bs : List β} :
    (a :: as).mapM read = .ok bs ↔ ∃ b bs', read a = .ok b ∧ as.mapM read = .ok bs' ∧ bs = b :: bs' := by
  rw [List.mapM_cons]
  constructor
  · intro h
    cases hb : read a with
    | error fault =>
      rw [hb] at h
      exact absurd h nofun
    | ok b =>
      cases hbs : as.mapM read with
      | error fault =>
        rw [hb, hbs] at h
        exact absurd h nofun
      | ok bs' =>
        rw [hb, hbs] at h
        exact ⟨b, bs', rfl, rfl, (Except.ok.inj h).symm⟩
  · rintro ⟨b, bs', hb, hbs, rfl⟩
    rw [hb, hbs]
    rfl

/-- If reading finds out what some values are made from, so does reading a list of them. -/
theorem mapM_eq_ok_iff {read : α → Except ε β} {source : γ → α} {target : γ → β}
    (h : ∀ a b, read a = .ok b ↔ ∃ c, a = source c ∧ b = target c) {as : List α} {bs : List β} :
    as.mapM read = .ok bs ↔ ∃ cs : List γ, as = cs.map source ∧ bs = cs.map target := by
  induction as generalizing bs with
  | nil =>
    constructor
    · intro hread
      obtain rfl := Except.ok.inj hread
      exact ⟨[], rfl, rfl⟩
    · rintro ⟨cs, hsource, rfl⟩
      obtain rfl := List.map_eq_nil_iff.mp hsource.symm
      rfl
  | cons a as ih =>
    rw [mapM_cons_eq_ok_iff]
    constructor
    · rintro ⟨b, bs', ha, has, rfl⟩
      obtain ⟨c, rfl, rfl⟩ := (h a b).mp ha
      obtain ⟨cs, rfl, rfl⟩ := ih.mp has
      exact ⟨c :: cs, rfl, rfl⟩
    · rintro ⟨cs, hsource, rfl⟩
      cases cs with
      | nil => exact absurd hsource nofun
      | cons c cs =>
        obtain ⟨rfl, rfl⟩ := List.cons.inj hsource
        exact ⟨target c, cs.map target, (h _ _).mpr ⟨c, rfl, rfl⟩, ih.mpr ⟨cs, rfl, rfl⟩, rfl⟩

theorem mapM_eq_nil_iff {read : α → Except ε β} {as : List α} : as.mapM read = .ok [] ↔ as = [] := by
  cases as with
  | nil => exact iff_of_true rfl rfl
  | cons a as =>
    rw [mapM_cons_eq_ok_iff]
    refine iff_of_false ?_ nofun
    rintro ⟨b, bs, -, -, h⟩
    exact nomatch h

/-- Lists that are read one by one are empty together. -/
theorem mapM_flatten_eq_nil_iff {read : α → Except ε (List β)} {as : List α} :
    (as.mapM read).map List.flatten = .ok [] ↔ ∀ a ∈ as, read a = .ok [] := by
  rw [map_eq_ok_iff]
  induction as with
  | nil => exact iff_of_true ⟨[], rfl, rfl⟩ nofun
  | cons a as ih =>
    rw [List.forall_mem_cons, ← ih]
    constructor
    · rintro ⟨_, hread, hflat⟩
      obtain ⟨bs, bss, ha, has, rfl⟩ := mapM_cons_eq_ok_iff.mp hread
      obtain ⟨rfl, hrest⟩ := List.append_eq_nil_iff.mp hflat
      exact ⟨ha, bss, has, hrest⟩
    · rintro ⟨ha, bss, has, hflat⟩
      exact ⟨[] :: bss, mapM_cons_eq_ok_iff.mpr ⟨[], bss, ha, has, rfl⟩, hflat⟩

/-- Where one item of a list is read as before, the list is. -/
theorem mapM_around {read : α → Except ε β} {a b : α} (h : read a = read b) (before after : List α) :
    (before ++ a :: after).mapM read = (before ++ b :: after).mapM read := by
  rw [List.mapM_append, List.mapM_append, List.mapM_cons, List.mapM_cons, h]

/-- A run succeeds up to its last step, and with it. -/
theorem foldlM_concat_eq_ok_iff {step : α → β → Except ε α} {bs : List β} {b : β} {a a' : α} :
    (bs ++ [b]).foldlM step a = .ok a' ↔ ∃ front, bs.foldlM step a = .ok front ∧ step front b = .ok a' := by
  rw [List.foldlM_append]
  cases bs.foldlM step a with
  | error fault =>
    refine iff_of_false nofun ?_
    rintro ⟨front, h, -⟩
    exact nomatch h
  | ok front =>
    have hlast : (Except.ok front >>= fun a => [b].foldlM step a) = step front b := bind_pure (step front b)
    rw [hlast]
    constructor
    · exact fun h => ⟨front, rfl, h⟩
    · rintro ⟨_, ⟨⟩, h⟩
      exact h

/-- A list is read item by item. -/
theorem mapM_eq_some_iff {read : α → Option β} {as : List α} {bs : List β} :
    as.mapM read = some bs ↔ List.Forall₂ (fun a b => read a = some b) as bs := by
  induction as generalizing bs with
  | nil => simp [eq_comm]
  | cons a as ih =>
    rw [List.mapM_cons, List.forall₂_cons_left_iff]
    simp [← ih, Option.bind_eq_some_iff, eq_comm (b := bs)]

/-- A run that fails or keeps a property step by step keeps it as a whole. -/
theorem foldlM_keeps {step : α → β → Option α} {P : α → Prop} {Q : β → Prop}
    (hstep : ∀ a b a', P a → Q b → step a b = some a' → P a') {bs : List β} (hbs : ∀ b ∈ bs, Q b) {a a' : α} (ha : P a)
    (hrun : bs.foldlM step a = some a') : P a' := by
  induction bs generalizing a with
  | nil => exact Option.some.inj hrun ▸ ha
  | cons b bs ih =>
    obtain ⟨hb, hbs⟩ := List.forall_mem_cons.mp hbs
    rw [List.foldlM_cons, Option.bind_eq_bind, Option.bind_eq_some_iff] at hrun
    obtain ⟨next, hfirst, hrest⟩ := hrun
    exact ih hbs (hstep a b next ha hb hfirst) hrest

end Traversal

end Criteria
