import Criteria.Query.Assembly
import Criteria.Proofs.Compilation

/-!
# `Criteria.Proofs.Assembly` — what applying conditions does to a query

Conditions are checked in both clauses, then compiled in both, with one supply running through. This module
turns that computation into one equation: `runOn_applyConditions` says when it fails, that a failure leaves
the supply alone, and what a success adds to the query. Later proofs read the equation and never the steps.

## Contents
- **Results.** `Scope.applied` is the query with the conditions added, `drawnBy` the number of names that
  they take.
- **The equation.** `runOn_applyConditions`, and `applyConditions_ok` for a run that succeeds.
-/

namespace Criteria

open Condition

/-! ## Results -/

/-- The number of names that conditions take: one for each value of either clause. -/
def drawnBy (conditions : List Condition) : Nat :=
  (valuesIn (routed .restriction conditions)).length + (valuesIn (routed .having conditions)).length

namespace Query

/-- Parts of a query are added one by one, or all at once. -/
theorem foldl_eq_of_step {α : Type} {add : Query → α → Query} {addAll : Query → List α → Query}
    (hnil : ∀ q, addAll q [] = q) (hcons : ∀ q a as, addAll (add q a) as = addAll q (a :: as)) (q : Query)
    (as : List α) : as.foldl add q = addAll q as := by
  induction as generalizing q with
  | nil => exact (hnil q).symm
  | cons a as ih => rw [List.foldl_cons, ih, hcons]

theorem foldl_addRestriction (q : Query) (fs : List Formula) :
    fs.foldl addRestriction q = { q with restrictions := q.restrictions ++ fs } := by
  apply foldl_eq_of_step
  · simp
  · simp [addRestriction]

theorem foldl_addHaving (q : Query) (fs : List Formula) :
    fs.foldl addHaving q = { q with havings := q.havings ++ fs } := by
  apply foldl_eq_of_step
  · simp
  · simp [addHaving]

end Query

namespace Scope

/-- The binder that compiles the conditions after grouping: the restriction has drawn its names. -/
def havingBinder (conditions : List Condition) (supply : NameSupply) : Binder :=
  Binder.start (supply.skip (valuesIn (routed .restriction conditions)).length)

/-- The query with the formulas and the parameters of legal conditions. -/
def applied (s : Scope) (q : Query) (conditions : List Condition) (supply : NameSupply) : Query :=
  { q with
    restrictions := q.restrictions ++
      (s.compileList (routed .restriction conditions) (Binder.start supply)).1
    havings := q.havings ++
      (s.compileList (routed .having conditions) (havingBinder conditions supply)).1
    bindings := (q.bindings.extend
        ((Binder.start supply).bindEach (valuesIn (routed .restriction conditions))).bindings).extend
      ((havingBinder conditions supply).bindEach (valuesIn (routed .having conditions))).bindings }

/-- The other clause is compiled on the supply that the restriction leaves. -/
theorem havingBinder_supply (conditions : List Condition) (supply : NameSupply) :
    (havingBinder conditions supply).supply =
      supply.skip (valuesIn (routed .restriction conditions)).length := rfl

/-- The table of a query to which conditions are applied: both clauses write their labels. -/
theorem applied_bindings (s : Scope) (q : Query) {conditions : List Condition} (supply : NameSupply)
    (hroom : drawnBy conditions ≤ UInt64.size) :
    (s.applied q conditions supply).bindings =
      (q.bindings.setAll (supply.label (valuesIn (routed .restriction conditions)))).setAll
        ((havingBinder conditions supply).supply.label (valuesIn (routed .having conditions))) := by
  unfold drawnBy at hroom
  show (q.bindings.extend _).extend _ = _
  rw [havingBinder, Binder.extend_start_bindEach _ _ _ (by omega),
    Binder.extend_start_bindEach _ _ _ (by omega)]
  rfl

/-- **Applied conditions do not disturb each other.** When the next names are free, the new table keeps all
    bindings of the old one, binds every value of both clauses under its own name, and leaves the names behind
    them free. -/
theorem applied_bindings_spec (s : Scope) {q : Query} {conditions : List Condition}
    {supply : NameSupply} {room : Nat} (hfree : q.bindings.Free supply (drawnBy conditions + room))
    (hroom : drawnBy conditions + room ≤ UInt64.size) :
    q.bindings.Keeps (s.applied q conditions supply).bindings ∧
      (s.applied q conditions supply).bindings.Binds
        (supply.label (valuesIn (routed .restriction conditions))) ∧
      (s.applied q conditions supply).bindings.Binds
        ((havingBinder conditions supply).supply.label (valuesIn (routed .having conditions))) ∧
      (s.applied q conditions supply).bindings.Free (supply.skip (drawnBy conditions)) room := by
  rw [s.applied_bindings q supply (by omega), havingBinder_supply, drawnBy, ← NameSupply.skip_skip]
  rw [drawnBy, Nat.add_assoc] at hfree hroom
  obtain ⟨hkeeps₁, hbinds₁, hfree₁⟩ := Bindings.setAll_label _ hfree hroom
  obtain ⟨hkeeps₂, hbinds₂, hfree₂⟩ := Bindings.setAll_label _ hfree₁ (by omega)
  exact ⟨hkeeps₁.trans hkeeps₂, hbinds₁.mono hkeeps₂, hbinds₂, hfree₂⟩

/-! ## The equation -/

/-- **Applying conditions.** The first flaw of the restriction, or else of the other clause, fails the
    computation and no name is drawn; without a flaw it succeeds. The checks that compilation repeats pass
    because the same conditions have passed before. -/
theorem runOn_applyConditions (s : Scope) (q : Query) (conditions : List Condition)
    (supply : NameSupply) :
    (s.applyConditions q conditions).runOn supply =
      match (flawIn? .restriction (routed .restriction conditions)).or
          (flawIn? .having (routed .having conditions)) with
      | some cause => (.error (.specification cause), supply)
      | none => (.ok (s.applied q conditions supply), supply.skip (drawnBy conditions)) := by
  unfold applyConditions checkClause
  rw [Naming.runOn_bind, runOn_rejectFlaw]
  cases hw : flawIn? .restriction (routed .restriction conditions) with
  | some cause => rfl
  | none =>
    show Naming.runOn (rejectFlaw _ >>= _) supply = _
    rw [Naming.runOn_bind, runOn_rejectFlaw]
    cases hh : flawIn? .having (routed .having conditions) with
    | some cause => rfl
    | none =>
      show Naming.runOn (s.compileClause conditions .restriction >>= _) supply = _
      rw [Naming.runOn_bind, runOn_compileClause, hw]
      show Naming.runOn (s.compileClause conditions .having >>= _) (supply.skip _) = _
      rw [Naming.runOn_bind, runOn_compileClause, hh]
      simp only [Naming.runOn_pure, Query.foldl_addRestriction, Query.foldl_addHaving,
        NameSupply.skip_skip]
      rfl

/-- A run that succeeds adds the compiled conditions and moves the supply behind their names. -/
theorem applyConditions_ok {s : Scope} {q q' : Query} {conditions : List Condition}
    {supply supply' : NameSupply}
    (hrun : (s.applyConditions q conditions).runOn supply = (.ok q', supply')) :
    q' = s.applied q conditions supply ∧ supply' = supply.skip (drawnBy conditions) := by
  rw [runOn_applyConditions] at hrun
  split at hrun
  · exact absurd (congrArg Prod.fst hrun) (by simp)
  · obtain ⟨hok, hsupply⟩ := Prod.mk.inj hrun
    exact ⟨(Except.ok.inj hok).symm, hsupply.symm⟩

end Scope

end Criteria
