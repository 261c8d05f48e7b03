import Criteria.Proofs.Renaming
import Criteria.Proofs.Requests

/-!
# `Criteria.Proofs.Counting` — a count and a page see the same entities

A request for a page and the count of all results are assembled on different paths: a page has its extras, its
order and its window, a count has another select list. What decides which entities are seen are the formulas and
the parameters, and these come from the conditions alone. So both paths restrict alike, and where one runs behind
the other, its names are moved by the number of names that the other has drawn.

## Contents
- **What restricts.** `Query.restricting`, which every step but the conditions leaves alone, and
  `Naming.restrictingRun`, a run as far as it matters for it.
- **Paths.** `Scope.RestrictsBy`: a computation restricts as the bare conditions do. Counting and finding both do
  (`restrictsBy_count`, `restrictsBy_find`).
- **Shifts.** `applied_shift`: the query on a later supply is that on the earlier one, renamed.
- **Result.** `count_restricts_as_find`.
-/

namespace Criteria

open Condition NameSupply

/-! ## What restricts -/

/-- The parts of a query that decide which entities it finds: the formulas of both clauses, and the values of
    their parameters. -/
def Query.restricting (q : Query) : List Formula × List Formula × Bindings :=
  (q.restrictions, q.havings, q.bindings)

theorem Query.restricting_inj {q q' : Query} : q.restricting = q'.restricting ↔
    q.restrictions = q'.restrictions ∧ q.havings = q'.havings ∧ q.bindings = q'.bindings := by
  simp only [restricting, Prod.mk.injEq]

theorem Query.restricting_applyWindow (q : Query) (limit offset : Option UInt64) :
    (q.applyWindow limit offset).restricting = q.restricting := by
  cases limit <;> cases offset <;> rfl

namespace Naming

/-- A run as far as it restricts: the fault or what restricts the query, and the supply that is left. -/
def restrictingRun (x : Naming Query) (supply : NameSupply) :
    Except Fault (List Formula × List Formula × Bindings) × NameSupply :=
  ((x.runOn supply).1.map Query.restricting, (x.runOn supply).2)

/-- A run succeeds with the parts that its query has. -/
theorem restrictingRun_eq_ok_iff {x : Naming Query} {supply after : NameSupply}
    {parts : List Formula × List Formula × Bindings} :
    x.restrictingRun supply = (.ok parts, after) ↔
      ∃ q, x.runOn supply = (.ok q, after) ∧ q.restricting = parts := by
  rw [restrictingRun]
  rcases x.runOn supply with ⟨fault | q, after'⟩
  · simp [Except.map]
  · simp [Except.map, and_comm]

end Naming

namespace Scope

theorem restricting_applyOrder (s : Scope) (q : Query) (order : SortOrder) :
    (s.applyOrder q order).restricting = q.restricting := by
  rw [applyOrder_eq]
  rfl

/-- Conditions are added to what restricts already, and the rest of the query has no part in it. -/
theorem restricting_applied (s : Scope) {q q' : Query} (h : q.restricting = q'.restricting)
    (conditions : List Condition) (supply : NameSupply) :
    (s.applied q conditions supply).restricting = (s.applied q' conditions supply).restricting := by
  obtain ⟨hrestrictions, hhavings, hbindings⟩ := Query.restricting_inj.mp h
  simp only [Query.restricting, applied, hrestrictions, hhavings, hbindings]

/-! ## Paths -/

/-- A computation restricts as the conditions do on their own. -/
def RestrictsBy (s : Scope) (conditions : List Condition) (x : Naming Query) : Prop :=
  ∀ supply, x.restrictingRun supply = (s.applyConditions s.base conditions).restrictingRun supply

theorem restrictsBy_applyConditions (s : Scope) {q : Query} (h : q.restricting = s.base.restricting)
    (conditions : List Condition) : s.RestrictsBy conditions (s.applyConditions q conditions) := by
  intro supply
  rw [Naming.restrictingRun, Naming.restrictingRun, runOn_applyConditions, runOn_applyConditions]
  split
  · rfl
  · simp only [Except.map]
    rw [s.restricting_applied h]

/-- What is done to the query afterwards does not count when it leaves alone what restricts. -/
theorem RestrictsBy.map {s : Scope} {conditions : List Condition} {x : Naming Query}
    (h : s.RestrictsBy conditions x) {f : Query → Query} (hf : ∀ q, (f q).restricting = q.restricting) :
    s.RestrictsBy conditions (x >>= fun q => pure (f q)) := by
  intro supply
  rw [← h supply, Naming.restrictingRun, Naming.restrictingRun, Naming.runOn_bind]
  rcases x.runOn supply with ⟨fault | q, after⟩
  · rfl
  · simp only [Naming.runOn_pure, Except.map, hf]

theorem restrictsBy_count (s : Scope) (conditions : List Condition) :
    s.RestrictsBy conditions (s.count conditions) := by
  have hselect : (s.base.selecting ["COUNT(" ++ s.rootAlias ++ ")"]).restricting = s.base.restricting := rfl
  exact s.restrictsBy_applyConditions hselect conditions

theorem restrictsBy_find (s : Scope) (r : FindRequest) : s.RestrictsBy r.conditions (s.find r) := by
  have hextras : (s.applyExtras s.base r.extras).restricting = s.base.restricting := by
    rw [applyExtras_base]
    rfl
  refine (s.restrictsBy_applyConditions hextras r.conditions).map fun q => ?_
  rw [Query.restricting_applyWindow, restricting_applyOrder]

/-- A run that succeeds ends with what the bare conditions give. -/
theorem RestrictsBy.ok {s : Scope} {conditions : List Condition} {x : Naming Query}
    (h : s.RestrictsBy conditions x) {supply after : NameSupply} {q : Query}
    (hrun : x.runOn supply = (.ok q, after)) :
    AllLegal (inspected conditions) ∧ q.restricting = (s.applied s.base conditions supply).restricting ∧
      after = supply.skip (drawnBy conditions) := by
  have hparts : x.restrictingRun supply = (.ok q.restricting, after) :=
    Naming.restrictingRun_eq_ok_iff.mpr ⟨q, hrun, rfl⟩
  rw [h supply] at hparts
  obtain ⟨q₀, hbare, hrestricting⟩ := Naming.restrictingRun_eq_ok_iff.mp hparts
  obtain ⟨rfl, rfl⟩ := applyConditions_ok hbare
  refine ⟨?_, hrestricting.symm, rfl⟩
  exact ((s.vets_applyConditions s.base conditions).accepts supply).mp ⟨_, _, hbare⟩

/-- Legal conditions let a run succeed. -/
theorem RestrictsBy.runs {s : Scope} {conditions : List Condition} {x : Naming Query}
    (h : s.RestrictsBy conditions x) (hlegal : AllLegal (inspected conditions)) (supply : NameSupply) :
    ∃ q after, x.runOn supply = (.ok q, after) := by
  obtain ⟨q₀, after, hbare⟩ := ((s.vets_applyConditions s.base conditions).accepts supply).mpr hlegal
  have hparts := Naming.restrictingRun_eq_ok_iff.mpr ⟨q₀, hbare, rfl⟩
  rw [← h supply] at hparts
  obtain ⟨q, hrun, -⟩ := Naming.restrictingRun_eq_ok_iff.mp hparts
  exact ⟨q, after, hrun⟩

/-! ## Shifts -/

/-- On a later supply, conditions give the formulas that they give on an earlier one, with the names moved by the
    distance between the two, and the same values in the same order. -/
theorem applied_shift (s : Scope) (conditions : List Condition) (supply : NameSupply) {k : Nat}
    {ρ : String → String} (hρ : Shifts ρ supply.stem k) (hroom : drawnBy conditions ≤ UInt64.size) :
    let q := s.applied s.base conditions supply
    let q' := s.applied s.base conditions (supply.skip k)
    Query.Renames ρ q q' ∧ q'.bindings.toList = q.bindings.toList.map (Prod.map ρ id) := by
  have hbase : s.base.bindings = .empty := rfl
  rw [s.applied_of_empty hbase supply hroom, s.applied_of_empty hbase (supply.skip k) hroom]
  have hwhere := hρ.carries (valuesIn (routed .restriction conditions)).length
  have hhaving : Carries ρ (havingBinder conditions supply).supply
      (havingBinder conditions (supply.skip k)).supply (valuesIn (routed .having conditions)).length := by
    rw [havingBinder_supply, havingBinder_supply, skip_skip, Nat.add_comm, ← skip_skip]
    exact Shifts.carries (s := supply.skip _) hρ _
  have hbound := hρ.carries (boundBy conditions).length
  exact ⟨⟨s.compileList_rename hwhere, s.compileList_rename hhaving⟩, hbound.label.symm⟩

theorem applied_base_size (s : Scope) (conditions : List Condition) (supply : NameSupply)
    (hroom : drawnBy conditions ≤ UInt64.size) :
    (s.applied s.base conditions supply).bindings.size = drawnBy conditions := by
  rw [s.applied_of_empty rfl supply hroom, ← length_boundBy]
  show (supply.label (boundBy conditions)).length = _
  rw [label_eq_zip, List.length_zip, length_names, Nat.min_self]

/-! ## Result -/

/-- **A count sees what a page sees.** A count and a request with the same conditions, whatever its extras, its
    order and its window are, fail with the same fault or end with the same formulas in both clauses, the same
    parameters and the same supply. When one of them runs behind the other, it succeeds as well, and every name in
    its formulas and its table is that of the first with the index moved by the number of parameters that the
    first has bound; the values are the same and stand in the same order. -/
theorem count_restricts_as_find (s : Scope) (r : FindRequest) :
    (∀ supply, (s.count r.conditions).restrictingRun supply = (s.find r).restrictingRun supply) ∧
      ∀ x ∈ [s.count r.conditions, s.find r], ∀ y ∈ [s.count r.conditions, s.find r],
        ∀ supply q after, x.runOn supply = (.ok q, after) → drawnBy r.conditions ≤ UInt64.size →
          ∃ q' after' ρ, y.runOn after = (.ok q', after') ∧
            Shifts ρ supply.stem q.bindings.size ∧
            Query.Renames ρ q q' ∧
            q'.restriction = q.restriction.map (Formula.rename ρ) ∧
            q'.having = q.having.map (Formula.rename ρ) ∧
            q'.bindings.toList = q.bindings.toList.map (Prod.map ρ id) := by
  have hall : ∀ x ∈ [s.count r.conditions, s.find r], s.RestrictsBy r.conditions x := by
    intro x hx
    simp only [List.mem_cons, List.not_mem_nil, or_false] at hx
    rcases hx with rfl | rfl
    · exact s.restrictsBy_count r.conditions
    · exact s.restrictsBy_find r
  refine ⟨fun supply => ?_, ?_⟩
  · rw [s.restrictsBy_count r.conditions supply, s.restrictsBy_find r supply]
  · intro x hx y hy supply q after hrun hroom
    -- the first run shows that the conditions are legal, so the second succeeds too
    obtain ⟨hlegal, hfirst, rfl⟩ := (hall x hx).ok hrun
    obtain ⟨q', after', hrun'⟩ := (hall y hy).runs hlegal (supply.skip (drawnBy r.conditions))
    obtain ⟨-, hsecond, -⟩ := (hall y hy).ok hrun'
    obtain ⟨hrestrictions, hhavings, hbindings⟩ := Query.restricting_inj.mp hfirst
    obtain ⟨hrestrictions', hhavings', hbindings'⟩ := Query.restricting_inj.mp hsecond
    obtain ⟨ρ, hρ⟩ := exists_shifts supply.stem (drawnBy r.conditions)
    obtain ⟨⟨hrename, hrename'⟩, htable⟩ := s.applied_shift r.conditions supply hρ hroom
    have hsize := s.applied_base_size r.conditions supply hroom
    rw [← hbindings] at hsize
    rw [← hrestrictions, ← hrestrictions'] at hrename
    rw [← hhavings, ← hhavings'] at hrename'
    rw [← hbindings, ← hbindings'] at htable
    have hrenames : Query.Renames ρ q q' := ⟨hrename, hrename'⟩
    rw [hsize]
    exact ⟨q', after', ρ, hrun', hρ, hrenames, hrenames.restriction, hrenames.having, htable⟩

/-- A page behind a count, with parameters in both clauses and below a group. -/
theorem count_restricts_as_find_page :
    let s : Scope := ⟨"entity", ⟨"Product", "product", ["name", "price"], ["tags"], ["id"]⟩⟩
    let conditions : List Condition :=
      [.compare .having .less "total" (.int 2),
        .group .restriction .or [.like "name" (.string "a%"), .group .restriction .and [.isNull "price"]]]
    let r : FindRequest := ⟨conditions, [⟨"name", .descending⟩], some 10, some 20, .none⟩
    ∃ q q' after' ρ, (s.count r.conditions).runOn ⟨"p", 7⟩ = (.ok q, ⟨"p", 9⟩) ∧
      (s.find r).runOn ⟨"p", 9⟩ = (.ok q', after') ∧
      q.bindings.toList = [("p_7", .string "a%"), ("p_8", .int 2)] ∧
      ρ "p_7" = "p_9" ∧ ρ "p_8" = "p_10" ∧ Query.Renames ρ q q' ∧
      q'.bindings.toList = [("p_9", .string "a%"), ("p_10", .int 2)] := by
  intro s conditions r
  obtain ⟨q, hrun, hbound⟩ : ∃ q, (s.count r.conditions).runOn ⟨"p", 7⟩ = (.ok q, ⟨"p", 9⟩) ∧
      q.bindings.toList = [("p_7", .string "a%"), ("p_8", .int 2)] := ⟨_, rfl, rfl⟩
  obtain ⟨q', after', ρ, hrun', hρ, hrenames, -, -, htable⟩ :=
    (s.count_restricts_as_find r).2 _ List.mem_cons_self _ (List.mem_cons_of_mem _ List.mem_cons_self)
      _ q _ hrun (by decide)
  have hsize : q.bindings.size = 2 := congrArg List.length hbound
  rw [hsize] at hρ
  have hseven : ρ "p_7" = "p_9" := hρ.moves 7
  have height : ρ "p_8" = "p_10" := hρ.moves 8
  refine ⟨q, q', after', ρ, hrun, hrun', hbound, hseven, height, hrenames, ?_⟩
  rw [htable, hbound, List.map_cons, List.map_cons, List.map_nil, Prod.map, Prod.map, hseven, height]
  rfl

end Scope

end Criteria
