import Criteria.Proofs.Assembly
import Mathlib.GroupTheory.Perm.List

/-!
# `Criteria.Proofs.Renaming` — queries up to the names of their parameters

The names of parameters depend on what a supply has handed out before. Nothing else does: conditions that are
compiled on two supplies become the same formulas, except that the names of the one supply stand where those of
the other stand. So a statement about two runs that draw their names in different places needs a renaming that
carries the names of the one run to those of the other, and nothing more.

## Contents
- **Renaming.** `rename` for operands, predicates and formulas. Normalization does not look at names
  (`normalize_rename`, `conjunction_rename`).
- **Names.** `Carries`: a renaming takes the next names of one supply to those of another. `exchange` carries two
  blocks of names into each other's place. `Shifts` moves all names of a stem by a fixed distance.
- **Compilation.** `compileList_rename`: formulas follow the names that their supply is carried to.
-/

namespace Criteria

open Condition

/-! ## Renaming -/

/-- An operand with its parameter renamed. -/
def Operand.rename (ρ : String → String) : Operand → Operand
  | .parameter name => .parameter (ρ name)
  | .literals values => .literals values
  | .absent => .absent

/-- A predicate with its parameter renamed. -/
def Predicate.rename (ρ : String → String) (p : Predicate) : Predicate :=
  { p with operand := p.operand.rename ρ }

namespace Formula

mutual

/-- A formula with its parameters renamed. -/
def rename (ρ : String → String) : Formula → Formula
  | .leaf p => .leaf (p.rename ρ)
  | .group connective members => .group connective (renameIn ρ members)

/-- Formulas with their parameters renamed. -/
def renameIn (ρ : String → String) : List Formula → List Formula
  | [] => []
  | f :: fs => rename ρ f :: renameIn ρ fs

end

theorem renameIn_eq_map (ρ : String → String) (fs : List Formula) : renameIn ρ fs = fs.map (rename ρ) := by
  induction fs with
  | nil => rfl
  | cons f fs ih => rw [renameIn, ih, List.map_cons]

theorem rename_group (ρ : String → String) (connective : Connective) (members : List Formula) :
    rename ρ (.group connective members) = .group connective (members.map (rename ρ)) := by
  rw [rename, renameIn_eq_map]

theorem isEmptyGroup_rename (ρ : String → String) (f : Formula) :
    (rename ρ f).isEmptyGroup = f.isEmptyGroup := by
  cases f with
  | leaf p => rfl
  | group connective members => cases members <;> rfl

/-- What a member contributes to its group depends on connectives only. -/
theorem spliced_rename (ρ : String → String) (connective : Connective) (f : Formula) :
    spliced connective (rename ρ f) = (spliced connective f).map (rename ρ) := by
  cases f with
  | leaf p => rfl
  | group own members =>
    rw [rename_group]
    cases members with
    | nil => rfl
    | cons g gs =>
      by_cases hown : own = connective
      · simp [spliced, hown]
      · simp [spliced, hown, rename_group]

theorem gathered_rename (ρ : String → String) (connective : Connective) (fs : List Formula) :
    gathered connective (fs.map (rename ρ)) = rename ρ (gathered connective fs) := by
  match fs with
  | [] => rfl
  | [f] => rfl
  | f :: g :: gs => exact (rename_group ρ connective (f :: g :: gs)).symm

theorem normalize_rename_and_list (ρ : String → String) :
    (∀ f, normalize (rename ρ f) = rename ρ (normalize f)) ∧
      ∀ fs, ∀ connective, normalizeIn connective (fs.map (rename ρ)) =
        (normalizeIn connective fs).map (rename ρ) := by
  refine tree_induction ?leaf ?group ?nil ?cons
  case leaf => intro p; rfl
  case group =>
    intro connective members ih
    rw [rename_group, normalize, ih connective, gathered_rename, normalize]
  case nil => intro connective; rfl
  case cons =>
    intro f fs ihf ihfs connective
    rw [List.map_cons, normalizeIn, ihf, spliced_rename, ihfs connective, normalizeIn, List.map_append]

/-- **Normalization does not look at names.** -/
theorem normalize_rename (ρ : String → String) (f : Formula) :
    normalize (rename ρ f) = rename ρ (normalize f) := (normalize_rename_and_list ρ).1 f

/-- The formula of a clause is renamed with the formulas of the clause. -/
theorem conjunction_rename (ρ : String → String) (fs : List Formula) :
    conjunction (fs.map (rename ρ)) = (conjunction fs).map (rename ρ) := by
  have hnormal : normalize (.group .and (fs.map (rename ρ))) = rename ρ (normalize (.group .and fs)) := by
    rw [← rename_group, normalize_rename]
  unfold conjunction
  simp only [hnormal, isEmptyGroup_rename]
  split <;> rfl

theorem rename_id_and_list :
    (∀ f : Formula, rename id f = f) ∧ ∀ fs : List Formula, fs.map (rename id) = fs := by
  refine tree_induction ?leaf ?group ?nil ?cons
  case leaf => intro p; cases p with | mk property test operand => cases operand <;> rfl
  case group => intro connective members ih; rw [rename_group, ih]
  case nil => rfl
  case cons => intro f fs ihf ihfs; rw [List.map_cons, ihf, ihfs]

end Formula

/-- The formulas of both clauses are those of another query with their parameters renamed. -/
structure Query.Renames (ρ : String → String) (q q' : Query) : Prop where
  restrictions : q'.restrictions = q.restrictions.map (Formula.rename ρ)
  havings : q'.havings = q.havings.map (Formula.rename ρ)

namespace Query.Renames

variable {ρ : String → String} {q q' : Query}

theorem restriction (h : Renames ρ q q') : q'.restriction = q.restriction.map (Formula.rename ρ) := by
  rw [Query.restriction, h.restrictions, Formula.conjunction_rename]
  rfl

theorem having (h : Renames ρ q q') : q'.having = q.having.map (Formula.rename ρ) := by
  rw [Query.having, h.havings, Formula.conjunction_rename]
  rfl

/-- Where no name changes, the formulas are equal. -/
theorem formulas_eq (h : Renames id q q') : q.restrictions = q'.restrictions ∧ q.havings = q'.havings := by
  rw [h.restrictions, h.havings, Formula.rename_id_and_list.2, Formula.rename_id_and_list.2]
  exact ⟨rfl, rfl⟩

end Query.Renames

/-! ## Names -/

namespace NameSupply

/-- A renaming takes the next `k` names of one supply to those of another, in their order. -/
def Carries (ρ : String → String) (s s' : NameSupply) (k : Nat) : Prop :=
  ∀ i < k, ρ (s.skip i).name = (s'.skip i).name

variable {ρ : String → String} {s s' : NameSupply} {j k : Nat}

theorem carries_add : Carries ρ s s' (j + k) ↔ Carries ρ s s' j ∧ Carries ρ (s.skip j) (s'.skip j) k := by
  constructor
  · intro h
    refine ⟨fun i hi => h i (by omega), fun i hi => ?_⟩
    rw [skip_skip, skip_skip]
    exact h (j + i) (by omega)
  · rintro ⟨hfirst, hsecond⟩ i hi
    by_cases hij : i < j
    · exact hfirst i hij
    · have hi' := hsecond (i - j) (by omega)
      rwa [skip_skip, skip_skip, Nat.add_sub_cancel' (by omega)] at hi'

/-- The name that is drawn next is carried to the name that is drawn next. -/
theorem Carries.name (h : Carries ρ s s' (k + 1)) : ρ s.name = s'.name := by
  have hfirst := h 0 (Nat.succ_pos k)
  rwa [skip_zero, skip_zero] at hfirst

/-- Values are labelled with the names that the labels are carried to. -/
theorem Carries.label {vs : List Json} (h : Carries ρ s s' vs.length) :
    (s.label vs).map (Prod.map ρ id) = s'.label vs := by
  induction vs generalizing s s' with
  | nil => rfl
  | cons v vs ih =>
    rw [List.length_cons, Nat.add_comm, carries_add, ← advance_eq_skip, ← advance_eq_skip] at h
    have hname : ρ s.name = s'.name := h.1.name
    rw [NameSupply.label, NameSupply.label, List.map_cons, ih h.2, Prod.map, hname]
    rfl

theorem mem_names {name : String} : name ∈ s.names k ↔ ∃ i < k, (s.skip i).name = name := by
  rw [names_eq_map]
  simp

theorem length_names (s : NameSupply) (k : Nat) : (s.names k).length = k := by
  rw [names_eq_map, List.length_map, List.length_range]

theorem getElem_names {i : Nat} (h : i < (s.names k).length) : (s.names k)[i] = (s.skip i).name := by
  simp [names_eq_map]

/-- Exchanges the next `j` names of a supply and the `k` names after them: names of the first block move behind
    the second, names of the second block move to the front. -/
def exchange (s : NameSupply) (j k : Nat) : Equiv.Perm String := (s.names (j + k)).formPerm ^ k

/-- A name that lies in neither block stays. -/
theorem exchange_of_not_mem {name : String} (h : name ∉ s.names (j + k)) : s.exchange j k name = name := by
  have hfixed : (s.names (j + k)).formPerm name = name := List.formPerm_apply_of_notMem h
  exact Equiv.Perm.pow_apply_eq_self_of_apply_eq_self hfixed k

/-- The two blocks together are turned by the length of the second. -/
theorem exchange_name (hroom : j + k ≤ UInt64.size) {i : Nat} (hi : i < j + k) :
    s.exchange j k (s.skip i).name = (s.skip ((i + k) % (j + k))).name := by
  have hnodup : (s.names (j + k)).Nodup := s.nodup_names hroom
  have hlength : i < (s.names (j + k)).length := by rwa [length_names]
  have hturn := List.formPerm_pow_apply_getElem _ hnodup k i hlength
  simp only [getElem_names, length_names] at hturn
  exact hturn

theorem exchange_first (s : NameSupply) (hroom : j + k ≤ UInt64.size) :
    Carries (s.exchange j k) s (s.skip k) j := by
  intro i hi
  rw [exchange_name hroom (by omega), Nat.mod_eq_of_lt (by omega), skip_skip, Nat.add_comm]

theorem exchange_second (s : NameSupply) (hroom : j + k ≤ UInt64.size) :
    Carries (s.exchange j k) (s.skip j) s k := by
  intro i hi
  have hindex : (j + i + k) % (j + k) = i := by
    rw [show j + i + k = i + (j + k) by omega, Nat.add_mod_right, Nat.mod_eq_of_lt (by omega)]
  rw [skip_skip, exchange_name hroom (by omega), hindex]

/-- Where one of the blocks is empty, nothing is exchanged. -/
theorem exchange_eq_one (s : NameSupply) (hroom : j + k ≤ UInt64.size) (h : j = 0 ∨ k = 0) :
    s.exchange j k = 1 := by
  rcases h with rfl | rfl
  · have hturn := List.formPerm_pow_length_eq_one_of_nodup _ (s.nodup_names hroom)
    rw [length_names, Nat.zero_add] at hturn
    rw [exchange, Nat.zero_add]
    exact hturn
  · exact pow_zero _

/-- Names in front of the two blocks and names behind them stay. -/
theorem exchange_outside {p i : Nat} (hi : i < UInt64.size) (hroom : p + (j + k) ≤ UInt64.size)
    (hout : i < p ∨ p + (j + k) ≤ i) : (s.skip p).exchange j k (s.skip i).name = (s.skip i).name := by
  apply exchange_of_not_mem
  rw [mem_names]
  rintro ⟨l, hl, hname⟩
  rw [skip_skip, name_skip_inj (by omega) hi] at hname
  omega

/-- **Four blocks of names**, of which the two in the middle change places. -/
theorem exchange_blocks (s : NameSupply) {a h w l : Nat} (hroom : a + h + w + l ≤ UInt64.size) :
    let ρ := (s.skip a).exchange h w
    Carries ρ s s a ∧ Carries ρ (s.skip a) (s.skip (a + w)) h ∧ Carries ρ (s.skip (a + h)) (s.skip a) w ∧
      Carries ρ (s.skip (a + h + w)) (s.skip (a + w + h)) l := by
  intro ρ
  refine ⟨fun i hi => ?_, ?_, ?_, fun i hi => ?_⟩
  · exact exchange_outside (by omega) (by omega) (.inl hi)
  · rw [← skip_skip]
    exact (s.skip a).exchange_first (by omega)
  · rw [← skip_skip]
    exact (s.skip a).exchange_second (by omega)
  · rw [Nat.add_right_comm a w h, skip_skip]
    exact exchange_outside (by omega) (by omega) (.inr (by omega))

/-- Values that are labelled in two orders get the same labels, up to the exchange of the blocks that they are
    labelled in. -/
theorem label_exchange (s : NameSupply) (as hs ws ls : List Json)
    (hroom : as.length + hs.length + ws.length + ls.length ≤ UInt64.size) :
    ((s.label (as ++ hs ++ (ws ++ ls))).map
      (Prod.map ((s.skip as.length).exchange hs.length ws.length) id)).Perm (s.label (as ++ ws ++ (hs ++ ls))) := by
  obtain ⟨has, hhs, hws, hls⟩ := s.exchange_blocks hroom
  simp only [label_append, skip_skip, List.map_append, List.append_assoc]
  rw [has.label, hhs.label, hws.label, hls.label]
  exact (List.perm_append_comm_assoc ..).append_left _

/-- A renaming moves the index of every name of a stem by a fixed distance, and leaves all other texts alone. -/
structure Shifts (ρ : String → String) (stem : String) (k : Nat) : Prop where
  moves : ∀ i, ρ (nameAt stem i) = nameAt stem (i + UInt64.ofNat k)
  keeps : ∀ name, (∀ i, nameAt stem i ≠ name) → ρ name = name

theorem exists_shifts (stem : String) (k : Nat) : ∃ ρ, Shifts ρ stem k := by
  have hinj : Function.Injective (nameAt stem) := fun i j h => (nameAt_inj.mp h).2
  refine ⟨Function.extend (nameAt stem) (fun i => nameAt stem (i + UInt64.ofNat k)) id, fun i => ?_, ?_⟩
  · exact hinj.extend_apply _ _ i
  · intro name hname
    exact Function.extend_apply' _ _ name fun ⟨i, hi⟩ => hname i hi

/-- A shift carries a supply to what it is after as many names. -/
theorem Shifts.carries {s : NameSupply} (h : Shifts ρ s.stem k) (n : Nat) : Carries ρ s (s.skip k) n := by
  intro i _
  rw [skip_skip, Nat.add_comm, ← skip_skip]
  exact h.moves (s.next + UInt64.ofNat i)

end NameSupply

/-! ## Compilation -/

open NameSupply

/-- An atom does not speak of an unbound parameter. -/
theorem Condition.argument_ne_unbound {c : Condition} {a : Atom} (h : c.atom? = some a) :
    a.argument ≠ .parameter none := by
  cases c with
  | bare property value => cases value <;> (injection h with h; subst h; exact nofun)
  | group clause connective members => exact absurd h nofun
  | _ => injection h with h; subst h; exact nofun

/-- An operand follows the name that its supply draws next. -/
theorem Argument.operand_rename {x : Argument} (hx : x ≠ .parameter none) {ρ : String → String}
    {supply supply' : NameSupply} (h : Carries ρ supply supply' x.value?.toList.length) :
    (x.operand supply).rename ρ = x.operand supply' := by
  cases x with
  | parameter value =>
    cases value with
    | none => exact absurd rfl hx
    | some v => exact congrArg Operand.parameter h.name
  | literals values => rfl
  | absent => rfl

namespace Scope

theorem compile_rename_and_list (s : Scope) (ρ : String → String) :
    (∀ c, ∀ b b' : Binder, Carries ρ b.supply b'.supply c.values.length →
        (s.compile c b').1 = (s.compile c b).1.rename ρ) ∧
      ∀ cs, ∀ b b' : Binder, Carries ρ b.supply b'.supply (valuesIn cs).length →
        (s.compileList cs b').1 = (s.compileList cs b).1.map (Formula.rename ρ) := by
  refine tree_induction ?atom ?group ?nil ?cons
  case atom =>
    intro c a h b b' hcarries
    rw [values_of_atom h] at hcarries
    have hoperand := Argument.operand_rename (argument_ne_unbound h) hcarries
    rw [s.compile_of_atom h, s.compile_of_atom h, ← hoperand]
    rfl
  case group =>
    intro clause connective members ih b b' hcarries
    rw [values_group] at hcarries
    show Formula.group connective (s.compileList members b').1 =
      Formula.rename ρ (.group connective (s.compileList members b).1)
    rw [ih b b' hcarries, Formula.rename_group]
  case nil => intro b b' _; rfl
  case cons =>
    intro c cs ihc ihcs b b' hcarries
    rw [valuesIn_cons, List.length_append, carries_add] at hcarries
    -- the rest takes the names behind those of the first condition
    have hrest : Carries ρ (s.compile c b).2.supply (s.compile c b').2.supply (valuesIn cs).length := by
      rw [s.compile_supply, s.compile_supply]
      exact hcarries.2
    show (s.compile c b').1 :: (s.compileList cs (s.compile c b').2).1 = _
    rw [ihc b b' hcarries.1, ihcs _ _ hrest]
    rfl

/-- **Formulas follow the names of their supply.** Where a renaming carries the names that some conditions draw
    from one supply to those that they draw from another, it carries their formulas. -/
theorem compileList_rename (s : Scope) {ρ : String → String} {cs : List Condition} {b b' : Binder}
    (h : Carries ρ b.supply b'.supply (valuesIn cs).length) :
    (s.compileList cs b').1 = (s.compileList cs b).1.map (Formula.rename ρ) :=
  (s.compile_rename_and_list ρ).2 cs b b' h

end Scope

end Criteria
