import Criteria.Proofs.Normal

/-!
# `Criteria.Proofs.Regrouping` — normalization decides regrouping

Formulas may be regrouped: parentheses around members with the same connective as the group outside come and go, and
so do parentheses around a single member and groups without members. Which formulas can be regrouped into each other
is decided by normalization. It regroups a formula into its normal form, and no regrouping gets past the normal form.

## Contents
- **Regrouping.** `Regroups`, the least congruence with these laws, and its lifting to lists of members.
- **Normal forms.** Each step of normalization is a regrouping, and so a formula is regrouped into its normal form
  (`regroups_normalize`).
- **Invariance.** `SameForm`: two formulas with the same normal form, up to the connective of an empty group. They
  contribute the same to any group, so that regrouping inside a group keeps its normal form.
- **Result.** `regroups_iff_sameForm`.
-/

namespace Criteria.Formula

/-! ## Regrouping -/

/-- A formula can be regrouped into another. -/
inductive Regroups : Formula → Formula → Prop where
  | refl (f : Formula) : Regroups f f
  | symm {f g : Formula} (h : Regroups f g) : Regroups g f
  | trans {f g e : Formula} (h : Regroups f g) (h' : Regroups g e) : Regroups f e
  /-- A member of a group is regrouped. -/
  | member (connective : Connective) (before after : List Formula) {f g : Formula} (h : Regroups f g) :
      Regroups (.group connective (before ++ f :: after)) (.group connective (before ++ g :: after))
  /-- A member with the connective of its group is replaced by its own members. -/
  | splice (connective : Connective) (before members after : List Formula) :
      Regroups (.group connective (before ++ .group connective members :: after))
        (.group connective (before ++ members ++ after))
  /-- A group with one member is replaced by the member. -/
  | unwrap (connective : Connective) (f : Formula) : Regroups (.group connective [f]) f
  /-- A member without members is removed. -/
  | drop (connective own : Connective) (before after : List Formula) :
      Regroups (.group connective (before ++ .group own [] :: after)) (.group connective (before ++ after))
  /-- The connective of an empty group says nothing. -/
  | empty (connective own : Connective) : Regroups (.group connective []) (.group own [])

/-- Members can be replaced by others behind any members of any group. -/
def RegroupsIn (connective : Connective) (fs gs : List Formula) : Prop :=
  ∀ before, Regroups (.group connective (before ++ fs)) (.group connective (before ++ gs))

namespace RegroupsIn

variable {connective : Connective} {fs gs es : List Formula}

theorem trans (h : RegroupsIn connective fs gs) (h' : RegroupsIn connective gs es) : RegroupsIn connective fs es :=
  fun before => (h before).trans (h' before)

/-- The members in front stay. -/
theorem append (es : List Formula) (h : RegroupsIn connective fs gs) : RegroupsIn connective (es ++ fs) (es ++ gs) := by
  intro before
  rw [← List.append_assoc, ← List.append_assoc]
  exact h (before ++ es)

/-- The first member is regrouped. -/
theorem head {f g : Formula} (h : Regroups f g) (fs : List Formula) : RegroupsIn connective (f :: fs) (g :: fs) :=
  fun before => .member connective before fs h

end RegroupsIn

/-! ## Normal forms -/

/-- A member may be replaced by what it contributes to its group. -/
theorem regroupsIn_spliced (connective : Connective) (f : Formula) (fs : List Formula) :
    RegroupsIn connective (f :: fs) (spliced connective f ++ fs) := by
  intro before
  unfold spliced
  split
  · exact .refl _
  · rename_i own
    exact .drop connective own before fs
  · rename_i own members hne
    split
    · rename_i hown
      rw [hown, ← List.append_assoc]
      exact .splice connective before members fs
    · exact .refl _

theorem regroups_gathered (connective : Connective) (fs : List Formula) :
    Regroups (.group connective fs) (gathered connective fs) := by
  unfold gathered
  split
  · exact .unwrap connective _
  · exact .refl _

theorem regroups_normalize_and_list :
    (∀ f, Regroups f (normalize f)) ∧ ∀ fs, ∀ connective, RegroupsIn connective fs (normalizeIn connective fs) := by
  refine tree_induction ?leaf ?group ?nil ?cons
  case leaf => intro p; exact .refl _
  case group =>
    intro connective members ih
    exact (ih connective []).trans (regroups_gathered connective _)
  case nil => intro connective before; exact .refl _
  case cons =>
    intro f fs ihf ihfs connective
    -- the first member is normalized, then spliced in, and then the others follow
    have hhead : RegroupsIn connective (f :: fs) (normalize f :: fs) := .head ihf fs
    have hsplice := regroupsIn_spliced connective (normalize f) fs
    exact (hhead.trans hsplice).trans ((ihfs connective).append _)

/-- **A formula is regrouped into its normal form.** -/
theorem regroups_normalize (f : Formula) : Regroups f (normalize f) := regroups_normalize_and_list.1 f

/-! ## Invariance -/

/-- Two formulas have the same normal form, or two empty groups for their normal forms. -/
def SameForm (f g : Formula) : Prop :=
  normalize f = normalize g ∨ ((normalize f).isEmptyGroup = true ∧ (normalize g).isEmptyGroup = true)

theorem eq_group_nil_of_isEmptyGroup {f : Formula} (h : f.isEmptyGroup = true) :
    ∃ connective, f = .group connective [] := by
  unfold isEmptyGroup at h
  split at h
  · rename_i connective
    exact ⟨connective, rfl⟩
  · cases h

namespace SameForm

variable {f g e : Formula}

theorem symm (h : SameForm f g) : SameForm g f := h.imp Eq.symm And.symm

theorem trans (h : SameForm f g) (h' : SameForm g e) : SameForm f e := by
  rcases h with hfg | ⟨hf, hg⟩
  · unfold SameForm
    rw [hfg]
    exact h'
  · rcases h' with hge | ⟨-, he⟩
    · exact .inr ⟨hf, hge ▸ hg⟩
    · exact .inr ⟨hf, he⟩

/-- Formulas of the same form contribute the same to a group. -/
theorem spliced_eq (h : SameForm f g) (connective : Connective) :
    spliced connective (normalize f) = spliced connective (normalize g) := by
  rcases h with h | ⟨hf, hg⟩
  · rw [h]
  · obtain ⟨own, hown⟩ := eq_group_nil_of_isEmptyGroup hf
    obtain ⟨other, hother⟩ := eq_group_nil_of_isEmptyGroup hg
    rw [hown, hother]
    rfl

/-- Groups whose members come to the same have the same form. -/
theorem of_normalizeIn {connective : Connective} {fs gs : List Formula}
    (h : normalizeIn connective fs = normalizeIn connective gs) :
    SameForm (.group connective fs) (.group connective gs) := by
  refine .inl ?_
  rw [normalize, normalize, h]

end SameForm

/-- Members around a place come to what they came to before. -/
theorem normalizeIn_around {connective : Connective} {fs gs : List Formula}
    (h : normalizeIn connective fs = normalizeIn connective gs) (before after : List Formula) :
    normalizeIn connective (before ++ fs ++ after) = normalizeIn connective (before ++ gs ++ after) := by
  simp only [normalizeIn_append, h]

/-- A single member leaves nothing of the group around it, unless nothing is left of the member. -/
theorem sameForm_singleton (connective : Connective) (f : Formula) : SameForm (.group connective [f]) f := by
  have hsettled := settled_normalize.1 f
  unfold SameForm
  rw [normalize, normalizeIn_singleton]
  cases hf : normalize f with
  | leaf p => exact .inl rfl
  | group own members =>
    rw [hf] at hsettled
    rcases hsettled with rfl | ⟨hlength, hmembers⟩
    · exact .inr ⟨rfl, rfl⟩
    · refine .inl ?_
      by_cases hown : own = connective
      · rw [hown, spliced_group, gathered_of_two_le connective hlength]
      · have hmember : Settled connective (.group own members) := ⟨hown, hlength, hmembers⟩
        rw [spliced_of_settled hmember]
        rfl

/-- **Regrouping does not get past the normal form.** By induction on the regrouping: each law leaves what the group
    contributes to its normal form, and a regrouped member contributes what it did before. -/
theorem sameForm_of_regroups {f g : Formula} (h : Regroups f g) : SameForm f g := by
  induction h with
  | refl f => exact .inl rfl
  | symm _ ih => exact ih.symm
  | trans _ _ ih ih' => exact ih.trans ih'
  | @member connective before after f g _ ih =>
    -- members with one normal form contribute the same, whatever stands around them
    have hplace : normalizeIn connective [f] = normalizeIn connective [g] := by
      rw [normalizeIn_singleton, normalizeIn_singleton, ih.spliced_eq connective]
    have hmembers := normalizeIn_around hplace before after
    rw [List.append_assoc, List.append_assoc] at hmembers
    exact .of_normalizeIn hmembers
  | splice connective before members after =>
    have hmembers := normalizeIn_around (normalizeIn_group connective members) before after
    rw [List.append_assoc] at hmembers
    exact .of_normalizeIn hmembers
  | unwrap connective f => exact sameForm_singleton connective f
  | drop connective own before after =>
    have hplace : normalizeIn connective [.group own []] = normalizeIn connective [] := rfl
    have hmembers := normalizeIn_around hplace before after
    rw [List.append_assoc, List.append_nil] at hmembers
    exact .of_normalizeIn hmembers
  | empty connective own => exact .inr ⟨rfl, rfl⟩

/-! ## Result -/

/-- **Normalization decides regrouping.** Two formulas can be regrouped into each other exactly when their normal forms
    are equal or both empty groups. -/
theorem regroups_iff_sameForm (f g : Formula) :
    Regroups f g ↔ normalize f = normalize g ∨
      ((normalize f).isEmptyGroup = true ∧ (normalize g).isEmptyGroup = true) := by
  constructor
  · exact sameForm_of_regroups
  · intro h
    have hforms : Regroups (normalize f) (normalize g) := by
      rcases h with h | ⟨hf, hg⟩
      · rw [h]
        exact .refl _
      · obtain ⟨connective, hf⟩ := eq_group_nil_of_isEmptyGroup hf
        obtain ⟨own, hg⟩ := eq_group_nil_of_isEmptyGroup hg
        rw [hf, hg]
        exact .empty connective own
    exact ((regroups_normalize f).trans hforms).trans (regroups_normalize g).symm

end Criteria.Formula
