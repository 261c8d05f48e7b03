import Criteria.Formula.Normal

/-!
# `Criteria.Proofs.Normal` — what flattening keeps

Normalization only removes parentheses: it splices groups into groups of the same connective, drops groups
without members and unwraps groups with one. So the predicates stay the same, in the same order, and a
formula disappears exactly when it has none.

## Contents
- **Induction.** `Formula.tree_induction`, for formulas and lists of formulas together.
- **Leaves.** `leaves_normalize`.
- **Vanishing.** `isEmptyGroup_normalize`, and `conjunction_eq_none_iff` for several formulas.
- **Shape.** In a normal form, groups of either connective alternate, and no group has fewer than two members
  (`settled_normalize`); a formula of this shape is its own normal form (`normalize_of_normal`). So normalizing a
  group and splicing it into one of the same connective is normalizing its members (`normalizeIn_group`).
-/

namespace Criteria.Formula

/-! ## Induction -/

section Induction

variable {motive : Formula → Prop} {motiveIn : List Formula → Prop}

mutual

theorem tree_induction_node (leaf : ∀ p, motive (.leaf p))
    (group : ∀ connective members, motiveIn members → motive (.group connective members))
    (nil : motiveIn []) (cons : ∀ f fs, motive f → motiveIn fs → motiveIn (f :: fs)) : ∀ f, motive f
  | .leaf p => leaf p
  | .group connective members =>
    group connective members (tree_induction_list leaf group nil cons members)

theorem tree_induction_list (leaf : ∀ p, motive (.leaf p))
    (group : ∀ connective members, motiveIn members → motive (.group connective members))
    (nil : motiveIn []) (cons : ∀ f fs, motive f → motiveIn fs → motiveIn (f :: fs)) :
    ∀ fs, motiveIn fs
  | [] => nil
  | f :: fs =>
    cons f fs (tree_induction_node leaf group nil cons f) (tree_induction_list leaf group nil cons fs)

end

/-- **Induction over formulas.** A fact about single formulas and one about lists of them are proved
    together. -/
theorem tree_induction (leaf : ∀ p, motive (.leaf p))
    (group : ∀ connective members, motiveIn members → motive (.group connective members))
    (nil : motiveIn []) (cons : ∀ f fs, motive f → motiveIn fs → motiveIn (f :: fs)) :
    (∀ f, motive f) ∧ ∀ fs, motiveIn fs :=
  ⟨tree_induction_node leaf group nil cons, tree_induction_list leaf group nil cons⟩

end Induction

/-! ## Leaves -/

theorem leavesIn_eq_nil_iff (fs : List Formula) : leavesIn fs = [] ↔ ∀ f ∈ fs, f.leaves = [] := by
  induction fs with
  | nil => simp [leavesIn]
  | cons f fs ih => simp [leavesIn, ih]

theorem leavesIn_append (fs gs : List Formula) : leavesIn (fs ++ gs) = leavesIn fs ++ leavesIn gs := by
  induction fs with
  | nil => rfl
  | cons f fs ih => rw [List.cons_append, leavesIn, leavesIn, ih, List.append_assoc]

/-- What a member contributes to its group has the leaves of the member. -/
theorem leavesIn_spliced (connective : Connective) (f : Formula) :
    leavesIn (spliced connective f) = f.leaves := by
  unfold spliced
  split
  · simp [leavesIn]
  · rfl
  · split
    · rfl
    · simp [leavesIn]

theorem leaves_gathered (connective : Connective) (fs : List Formula) :
    (gathered connective fs).leaves = leavesIn fs := by
  unfold gathered
  split
  · simp [leavesIn]
  · rfl

theorem leaves_normalize_and_list :
    (∀ f, (normalize f).leaves = f.leaves) ∧
      ∀ fs, ∀ connective, leavesIn (normalizeIn connective fs) = leavesIn fs := by
  refine tree_induction ?leaf ?group ?nil ?cons
  case leaf => intro p; rfl
  case group =>
    intro connective members ih
    rw [normalize, leaves_gathered, ih connective, leaves]
  case nil => intro connective; rfl
  case cons =>
    intro f fs ihf ihfs connective
    rw [normalizeIn, leavesIn_append, leavesIn_spliced, ihf, ihfs connective, leavesIn]

/-- **Normalization keeps the predicates and their order.** -/
theorem leaves_normalize (f : Formula) : (normalize f).leaves = f.leaves := leaves_normalize_and_list.1 f

/-! ## Vanishing -/

theorem leaves_of_isEmptyGroup {f : Formula} (h : f.isEmptyGroup = true) : f.leaves = [] := by
  unfold isEmptyGroup at h
  split at h
  · rfl
  · exact absurd h (by simp)

/-- Without leaves nothing is left of a member. The members of the group are empty groups by induction,
    and an empty group is not spliced in. -/
theorem normalize_of_no_leaves :
    (∀ f, f.leaves = [] → ∃ connective, normalize f = .group connective []) ∧
      ∀ fs, leavesIn fs = [] → ∀ connective, normalizeIn connective fs = [] := by
  refine tree_induction ?leaf ?group ?nil ?cons
  case leaf => intro p h; exact absurd h (by simp [leaves])
  case group =>
    intro connective members ih h
    exact ⟨connective, by rw [normalize, ih h connective]; rfl⟩
  case nil => intro _ connective; rfl
  case cons =>
    intro f fs ihf ihfs h connective
    obtain ⟨hf, hfs⟩ := List.append_eq_nil_iff.mp h
    obtain ⟨own, hown⟩ := ihf hf
    rw [normalizeIn, hown, ihfs hfs connective]
    rfl

/-- **A normal form is an empty group exactly when the formula has no predicate.** -/
theorem isEmptyGroup_normalize (f : Formula) : (normalize f).isEmptyGroup = true ↔ f.leaves = [] := by
  constructor
  · intro h
    rw [← leaves_normalize]
    exact leaves_of_isEmptyGroup h
  · intro h
    obtain ⟨connective, hf⟩ := normalize_of_no_leaves.1 f h
    rw [hf]; rfl

theorem conjunction_eq_none_iff (fs : List Formula) : conjunction fs = none ↔ leavesIn fs = [] := by
  have hiff := isEmptyGroup_normalize (.group .and fs)
  unfold conjunction
  by_cases h : (normalize (.group .and fs)).isEmptyGroup = true
  · simp only [h, if_true]
    exact ⟨fun _ => hiff.mp h, fun _ => trivial⟩
  · simp only [h]
    exact ⟨fun hn => absurd hn (by simp), fun hn => absurd (hiff.mpr hn) h⟩

/-- A conjunction that is there is the normal form of its group. -/
theorem conjunction_eq_some {fs : List Formula} {f : Formula} (h : conjunction fs = some f) :
    f = normalize (.group .and fs) := by
  unfold conjunction at h
  by_cases he : (normalize (.group .and fs)).isEmptyGroup = true
  · simp [he] at h
  · simpa [he] using h.symm

/-- The predicates of a conjunction are those of its formulas, in their order. -/
theorem leaves_conjunction (fs : List Formula) :
    ((conjunction fs).map leaves).getD [] = leavesIn fs := by
  cases h : conjunction fs with
  | none => exact ((conjunction_eq_none_iff fs).mp h).symm
  | some f =>
    rw [Option.map_some, Option.getD_some, conjunction_eq_some h, leaves_normalize]
    rfl

/-! ## Shape -/

mutual

/-- A formula that stays as it is among the members of a normalized group: a predicate, or a group of the other
    connective with at least two such members. -/
def Settled (outer : Connective) : Formula → Prop
  | .leaf _ => True
  | .group own members => own ≠ outer ∧ 2 ≤ members.length ∧ SettledIn own members

/-- Formulas that stay as they are among the members of a normalized group. -/
def SettledIn (outer : Connective) : List Formula → Prop
  | [] => True
  | f :: fs => Settled outer f ∧ SettledIn outer fs

end

theorem settledIn_append (outer : Connective) (fs gs : List Formula) :
    SettledIn outer (fs ++ gs) ↔ SettledIn outer fs ∧ SettledIn outer gs := by
  induction fs with
  | nil => simp [SettledIn]
  | cons f fs ih => simp [SettledIn, ih, and_assoc]

/-- A group contributes its members to a group of the same connective. -/
theorem spliced_group (connective : Connective) (members : List Formula) :
    spliced connective (.group connective members) = members := by
  cases members with
  | nil => rfl
  | cons f fs => exact if_pos rfl

/-- Two members or more are gathered in a group. -/
theorem gathered_of_two_le (connective : Connective) {fs : List Formula} (h : 2 ≤ fs.length) :
    gathered connective fs = .group connective fs := by
  unfold gathered
  split
  · exact absurd h (by simp)
  · rfl

theorem spliced_of_settled {connective : Connective} {f : Formula} (h : Settled connective f) :
    spliced connective f = [f] := by
  cases f with
  | leaf p => rfl
  | group own members =>
    obtain ⟨hown, hlength, -⟩ := h
    cases members with
    | nil => exact absurd hlength (by simp)
    | cons g gs => exact if_neg hown

/-- A formula in normal form: a predicate, a group without members, or a group with at least two, all of them
    settled. -/
def Normal : Formula → Prop
  | .leaf _ => True
  | .group own members => members = [] ∨ 2 ≤ members.length ∧ SettledIn own members

/-- What a member in normal form contributes to a group is settled there. -/
theorem settledIn_spliced (connective : Connective) {f : Formula} (h : Normal f) :
    SettledIn connective (spliced connective f) := by
  unfold spliced
  split
  · exact ⟨trivial, trivial⟩
  · trivial
  · rename_i own members hne
    obtain ⟨hlength, hmembers⟩ := h.resolve_left hne
    split
    · rename_i hown
      exact hown ▸ hmembers
    · rename_i hown
      exact ⟨⟨hown, hlength, hmembers⟩, trivial⟩

theorem normal_gathered {connective : Connective} {fs : List Formula} (h : SettledIn connective fs) :
    Normal (gathered connective fs) := by
  match fs with
  | [] => exact .inl rfl
  | [f] =>
    obtain ⟨hf, -⟩ := h
    cases f with
    | leaf p => trivial
    | group own members => exact .inr hf.2
  | f :: g :: gs => exact .inr ⟨by simp, h⟩

/-- **The shape of normal forms.** Members of a group are spliced in when they share its connective, dropped when
    nothing is in them and unwrapped when one member is, so that only settled ones are left. -/
theorem settled_normalize :
    (∀ f, Normal (normalize f)) ∧ ∀ fs, ∀ connective, SettledIn connective (normalizeIn connective fs) := by
  refine tree_induction ?leaf ?group ?nil ?cons
  case leaf => intro p; trivial
  case group => intro connective members ih; exact normal_gathered (ih connective)
  case nil => intro connective; trivial
  case cons =>
    intro f fs ihf ihfs connective
    exact (settledIn_append ..).mpr ⟨settledIn_spliced connective ihf, ihfs connective⟩

theorem normal_of_settled {outer : Connective} {f : Formula} (h : Settled outer f) : Normal f := by
  cases f with
  | leaf p => trivial
  | group own members => exact .inr h.2

theorem normalize_of_normal_and_list :
    (∀ f, Normal f → normalize f = f) ∧
      ∀ fs, ∀ connective, SettledIn connective fs → normalizeIn connective fs = fs := by
  refine tree_induction ?leaf ?group ?nil ?cons
  case leaf => intro p _; rfl
  case group =>
    intro connective members ih h
    rcases h with rfl | ⟨hlength, hmembers⟩
    · rfl
    · rw [normalize, ih connective hmembers, gathered_of_two_le connective hlength]
  case nil => intro connective _; rfl
  case cons =>
    intro f fs ihf ihfs connective h
    obtain ⟨hf, hfs⟩ := h
    rw [normalizeIn, ihf (normal_of_settled hf), spliced_of_settled hf, ihfs connective hfs]
    rfl

/-- **Normal forms are fixed.** Nothing in them can be spliced in, dropped or unwrapped. -/
theorem normalize_of_normal {f : Formula} (h : Normal f) : normalize f = f := normalize_of_normal_and_list.1 f h

theorem normalizeIn_append (connective : Connective) (fs gs : List Formula) :
    normalizeIn connective (fs ++ gs) = normalizeIn connective fs ++ normalizeIn connective gs := by
  induction fs with
  | nil => rfl
  | cons f fs ih => rw [List.cons_append, normalizeIn, normalizeIn, ih, List.append_assoc]

/-- A single formula contributes to a group what its normal form does. -/
theorem normalizeIn_singleton (connective : Connective) (f : Formula) :
    normalizeIn connective [f] = spliced connective (normalize f) := List.append_nil _

/-- **A group inside a group of the same connective contributes its members.** It makes no difference whether they
    are gathered in between, because what is left of them is settled. -/
theorem normalizeIn_group (connective : Connective) (members : List Formula) :
    normalizeIn connective [.group connective members] = normalizeIn connective members := by
  have hsettled := settled_normalize.2 members connective
  rw [normalizeIn_singleton, normalize]
  match hmembers : normalizeIn connective members with
  | [] => rfl
  | [f] =>
    rw [hmembers] at hsettled
    exact spliced_of_settled hsettled.1
  | f :: g :: gs => exact spliced_group connective _

/-- The normal form of a conjunction is made from the normalized members. -/
theorem conjunction_congr {fs gs : List Formula} (h : normalizeIn .and fs = normalizeIn .and gs) :
    conjunction fs = conjunction gs := by
  unfold conjunction
  rw [normalize, normalize, h]

end Criteria.Formula
