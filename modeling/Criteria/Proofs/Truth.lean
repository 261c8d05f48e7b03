import Criteria.Proofs.Normal
import Mathlib.Data.Bool.Basic
import Mathlib.Order.Lattice

/-!
# `Criteria.Proofs.Truth` — truth values of formulas

Predicates may be true or false, or unknown where a column is null. Both logics are lattices, with
conjunction as the meet and disjunction as the join, and normalization is sound in every lattice because it
uses nothing but associativity.

A group without leaves restricts nothing, whatever its connective: it has no truth value, and the group around
it ignores it. So the value of a formula is an `Option`, absent where there is nothing to evaluate.

## Contents
- **Logics.** `Kleene` are the three truth values of query languages; `Bool` are the two.
- **Values.** `Formula.value` from the truth values of predicates; `value_group` says what a group makes of the
  values of its members.
- **Evaluations.** `Compositional`: what evaluations of formulas have in common. They look at nothing but the predicates
  of a formula (`Compositional.congr`).
- **Soundness.** `value_normalize`, and `value_conjunction` for several formulas.
- **Result.** `normalize_keeps_meaning`.
-/

namespace Criteria

/-! ## Logics -/

/-- The truth values of a logic with null: `no < unknown < yes`. -/
inductive Kleene where
  | no
  | unknown
  | yes
  deriving DecidableEq, Repr

/-- The place of a truth value in their order. -/
def Kleene.rank : Kleene → Nat
  | .no => 0
  | .unknown => 1
  | .yes => 2

theorem Kleene.rank_injective : Function.Injective Kleene.rank := by
  intro a b h
  cases a <;> cases b <;> first | rfl | exact absurd h (by decide)

instance : LinearOrder Kleene := LinearOrder.lift' Kleene.rank Kleene.rank_injective

/-- The truth values of a logic without null. The lattice is named here because several instances lead to it, and
    not all of them compute. -/
instance latticeBool : Lattice Bool := Bool.instDistribLattice.toLattice

/-- A false member decides a conjunction, and a true one a disjunction, whatever is unknown beside it. -/
example : Kleene.unknown ⊓ .no = .no ∧ Kleene.unknown ⊓ .yes = .unknown ∧
    Kleene.unknown ⊔ .yes = .yes ∧ Kleene.unknown ⊔ .no = .unknown := by decide

variable {τ : Type} [Lattice τ]

/-- The truth value of two members joined by a connective. -/
def Connective.join : Connective → τ → τ → τ
  | .and => (· ⊓ ·)
  | .or => (· ⊔ ·)

instance (connective : Connective) : Std.Associative (connective.join : τ → τ → τ) where
  assoc a b c := by
    cases connective with
    | and => exact inf_assoc a b c
    | or => exact sup_assoc a b c

/-- The truth value of all members joined by a connective; absent when there is no member. -/
def Connective.joinAll (connective : Connective) : List τ → Option τ
  | [] => none
  | v :: vs => some (vs.foldl connective.join v)

/-! ## Values -/

namespace Formula

mutual

/-- The truth value of a formula; absent when no predicate is below it. -/
def value (holds : Predicate → τ) : Formula → Option τ
  | .leaf p => some (holds p)
  | .group connective members => valueIn holds connective members

/-- The truth value of the members of a group. -/
def valueIn (holds : Predicate → τ) (connective : Connective) : List Formula → Option τ
  | [] => none
  | f :: fs => (value holds f).merge connective.join (valueIn holds connective fs)

end

variable (holds : Predicate → τ)

theorem valueIn_append (connective : Connective) (fs gs : List Formula) :
    valueIn holds connective (fs ++ gs) =
      (valueIn holds connective fs).merge connective.join (valueIn holds connective gs) := by
  induction fs with
  | nil => simp [valueIn]
  | cons f fs ih =>
    rw [List.cons_append, valueIn, valueIn, ih]
    exact ((Option.associative_merge connective.join).assoc _ _ _).symm

theorem valueIn_singleton (connective : Connective) (f : Formula) :
    valueIn holds connective [f] = value holds f := by
  simp [valueIn]

/-- **A group has the joined values of its members.** Members without a value are left out, and a group in which
    no member is left has no value itself. -/
theorem value_group (connective : Connective) (members : List Formula) :
    value holds (.group connective members) = connective.joinAll (members.filterMap (value holds)) := by
  show valueIn holds connective members = _
  induction members with
  | nil => rfl
  | cons f fs ih =>
    rw [valueIn, ih]
    cases hf : value holds f with
    | none => rw [Option.merge_none_left, List.filterMap_cons_none hf]
    | some v =>
      rw [List.filterMap_cons_some hf]
      cases fs.filterMap (value holds) with
      | nil => rfl
      | cons w ws =>
        have hfold : connective.join v (ws.foldl connective.join w) =
            ws.foldl connective.join (connective.join v w) := List.foldl_assoc.symm
        exact congrArg some hfold

/-! ## Evaluations -/

/-- A way to evaluate formulas: a leaf by its own predicate, a group by its members or by having none, and members one
    after the other. -/
structure Compositional {α σ : Type} (eval : (Predicate → α) → Formula → σ)
    (evalIn : (Predicate → α) → Connective → List Formula → σ) : Prop where
  leaf : ∃ own : α → σ, ∀ holds p, eval holds (.leaf p) = own (holds p)
  group : ∃ whole : Connective → Bool → σ → σ, ∀ holds connective members,
    eval holds (.group connective members) = whole connective members.isEmpty (evalIn holds connective members)
  nil : ∃ unit : Connective → σ, ∀ holds connective, evalIn holds connective [] = unit connective
  cons : ∃ join : Connective → σ → σ → σ, ∀ holds connective f fs,
    evalIn holds connective (f :: fs) = join connective (eval holds f) (evalIn holds connective fs)

/-- **Only the predicates of a formula count** in its evaluation. -/
theorem Compositional.congr {α σ : Type} {eval : (Predicate → α) → Formula → σ}
    {evalIn : (Predicate → α) → Connective → List Formula → σ} (h : Compositional eval evalIn)
    {holds holds' : Predicate → α} :
    (∀ f, (∀ p ∈ f.leaves, holds p = holds' p) → eval holds f = eval holds' f) ∧
      ∀ fs, (∀ p ∈ leavesIn fs, holds p = holds' p) → ∀ connective,
        evalIn holds connective fs = evalIn holds' connective fs := by
  obtain ⟨own, hleaf⟩ := h.leaf
  obtain ⟨whole, hgroup⟩ := h.group
  obtain ⟨unit, hnil⟩ := h.nil
  obtain ⟨join, hcons⟩ := h.cons
  refine tree_induction ?leaf ?group ?nil ?cons
  case leaf =>
    intro p hp
    rw [hleaf, hleaf, hp p List.mem_cons_self]
  case group =>
    intro connective members ih hp
    rw [hgroup, hgroup, ih hp connective]
  case nil =>
    intro _ connective
    rw [hnil, hnil]
  case cons =>
    intro f fs ihf ihfs hp connective
    have hf := ihf fun p hmem => hp p (List.mem_append_left _ hmem)
    have hfs := ihfs (fun p hmem => hp p (List.mem_append_right _ hmem)) connective
    rw [hcons, hcons, hf, hfs]

theorem compositional_value : Compositional (value : (Predicate → τ) → Formula → Option τ) valueIn where
  leaf := ⟨some, fun _ _ => rfl⟩
  group := ⟨fun _ _ x => x, fun _ _ _ => rfl⟩
  nil := ⟨fun _ => none, fun _ _ => rfl⟩
  cons := ⟨fun connective => Option.merge connective.join, fun _ _ _ _ => rfl⟩

/-! ## Soundness -/

/-- What a member contributes to a group has the value of the member: the members of a group of the same
    connective are joined by that connective either way. -/
theorem valueIn_spliced (connective : Connective) (f : Formula) :
    valueIn holds connective (spliced connective f) = value holds f := by
  unfold spliced
  split
  · exact valueIn_singleton holds connective _
  · rfl
  · split
    · rename_i hown; subst hown; rfl
    · exact valueIn_singleton holds connective _

theorem value_gathered (connective : Connective) (fs : List Formula) :
    value holds (gathered connective fs) = valueIn holds connective fs := by
  unfold gathered
  split
  · exact (valueIn_singleton holds connective _).symm
  · rfl

theorem value_normalize_and_list :
    (∀ f, value holds (normalize f) = value holds f) ∧
      ∀ fs, ∀ connective, valueIn holds connective (normalizeIn connective fs) =
        valueIn holds connective fs := by
  refine tree_induction ?leaf ?group ?nil ?cons
  case leaf => intro p; rfl
  case group =>
    intro connective members ih
    rw [normalize, value_gathered, ih connective, value]
  case nil => intro connective; rfl
  case cons =>
    intro f fs ihf ihfs connective
    rw [normalizeIn, valueIn_append, valueIn_spliced, ihf, ihfs connective, valueIn]

/-- **Normalization keeps the truth value.** -/
theorem value_normalize (f : Formula) : value holds (normalize f) = value holds f :=
  (value_normalize_and_list holds).1 f

/-- A formula without predicates has no truth value, and every other formula has one. -/
theorem value_eq_none_iff_and_list :
    (∀ f, value holds f = none ↔ f.leaves = []) ∧
      ∀ fs, ∀ connective, valueIn holds connective fs = none ↔ leavesIn fs = [] := by
  refine tree_induction ?leaf ?group ?nil ?cons
  case leaf => intro p; simp [value, leaves]
  case group => intro connective members ih; exact ih connective
  case nil => intro connective; exact ⟨fun _ => rfl, fun _ => rfl⟩
  case cons =>
    intro f fs ihf ihfs connective
    rw [valueIn, Option.merge_eq_none_iff, ihf, ihfs connective, leavesIn, List.append_eq_nil_iff]

/-- **A conjunction has the value of its formulas joined by `and`.** Where it is absent, none of them has a
    value. -/
theorem value_conjunction (fs : List Formula) :
    (conjunction fs).bind (value holds) = valueIn holds .and fs := by
  cases h : conjunction fs with
  | none =>
    have hleaves := (conjunction_eq_none_iff fs).mp h
    exact (((value_eq_none_iff_and_list holds).2 fs .and).mpr hleaves).symm
  | some f =>
    rw [Option.bind_some, conjunction_eq_some h, value_normalize]
    rfl

/-! ## Result -/

/-- **Normalization keeps meaning and predicates.** In every logic, and for all truth values of the predicates, a
    formula and its normal form are both without a value or have the same value. Its predicates stand in the
    normal form in the same order, so they are as many as before and mention the same parameters. -/
theorem normalize_keeps_meaning (f : Formula) :
    (∀ {τ : Type} [Lattice τ] (holds : Predicate → τ),
        (∀ connective members, value holds (.group connective members) =
          connective.joinAll (members.filterMap (value holds))) ∧
        (value holds f = none ↔ f.leaves = []) ∧
        value holds (normalize f) = value holds f) ∧
      (normalize f).leaves = f.leaves ∧
      (normalize f).leafCount = f.leafCount ∧
      (normalize f).parameterNames = f.parameterNames := by
  have hleaves := leaves_normalize f
  refine ⟨?_, hleaves, ?_, ?_⟩
  · intro τ _ holds
    exact ⟨value_group holds, (value_eq_none_iff_and_list holds).1 f, value_normalize holds f⟩
  · rw [leafCount, leafCount, hleaves]
  · rw [parameterNames, parameterNames, hleaves]

-- the empty disjunction is ignored around an unknown predicate, although nothing below it could hold
example (p : Predicate) :
    value (fun _ => Kleene.unknown) (.group .and [.leaf p, .group .or [.group .and []]]) = some .unknown := by
  rfl

end Formula

end Criteria
