import Criteria.Record

/-!
# `Criteria.Proofs.Record` — records of one type

An engine may hand over records of any type. A list of them passes as a whole or is rejected for the first record
of another type; the records behind that one do not matter.

## Contents
- **Lists.** `AllOf` and `FirstForeign`, one of which holds of every list.
- **The check.** What checking a list gives in either case.
-/

namespace Criteria

variable {ρ : Type} [Record ρ] {t : EntityType} {rs : List ρ}

/-! ## Lists -/

/-- Every record of a list is of a type. -/
def AllOf (t : EntityType) (rs : List ρ) : Prop := ∀ r ∈ rs, Record.type r = t

/-- The first record of a list that is of another type. -/
def FirstForeign (t : EntityType) (rs : List ρ) (r : ρ) : Prop :=
  ∃ before after, rs = before ++ r :: after ∧ AllOf t before ∧ Record.type r ≠ t

theorem allOf_cons {r : ρ} : AllOf t (r :: rs) ↔ Record.type r = t ∧ AllOf t rs := List.forall_mem_cons

/-- A list is of one type, or has a first record of another. -/
theorem allOf_or_firstForeign (t : EntityType) (rs : List ρ) : AllOf t rs ∨ ∃ r, FirstForeign t rs r := by
  induction rs with
  | nil => exact .inl fun _ h => absurd h List.not_mem_nil
  | cons r rs ih =>
    by_cases hr : Record.type r = t
    · rcases ih with hall | ⟨r', before, after, rfl, hbefore, hr'⟩
      · exact .inl (allOf_cons.mpr ⟨hr, hall⟩)
      · exact .inr ⟨r', r :: before, after, rfl, allOf_cons.mpr ⟨hr, hbefore⟩, hr'⟩
    · exact .inr ⟨r, [], rs, rfl, fun _ h => absurd h List.not_mem_nil, hr⟩

/-! ## The check -/

/-- Records of the type pass in front of any others. -/
theorem mapM_ofType_append {before : List ρ} (hbefore : AllOf t before) (rest : List ρ) :
    (before ++ rest).mapM (ofType t) = (rest.mapM (ofType t)).map (before ++ ·) := by
  induction before with
  | nil => cases h : rest.mapM (ofType t) <;> simp [h, Except.map]
  | cons r before ih =>
    obtain ⟨hr, hbefore⟩ := allOf_cons.mp hbefore
    have hpass : ofType t r = .ok r := if_pos hr
    rw [List.cons_append, List.mapM_cons, hpass, ih hbefore]
    cases rest.mapM (ofType t) <;> rfl

/-- A list of one type passes as it is. -/
theorem mapM_ofType_of_allOf (h : AllOf t rs) : rs.mapM (ofType t) = .ok rs := by
  rw [← List.append_nil rs, mapM_ofType_append h, List.append_nil]
  exact congrArg Except.ok (List.append_nil rs)

/-- **The first foreign record decides.** The failure names its type, whatever stands behind it. -/
theorem mapM_ofType_of_firstForeign {r : ρ} (h : FirstForeign t rs r) :
    rs.mapM (ofType t) = .error (.typeMismatch t.name (Record.type r).name) := by
  obtain ⟨before, after, rfl, hbefore, hr⟩ := h
  have hfail : ofType t r = .error (.typeMismatch t.name (Record.type r).name) := if_neg hr
  rw [mapM_ofType_append hbefore, List.mapM_cons, hfail]
  rfl

end Criteria
