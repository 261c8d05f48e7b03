import Criteria.Proofs.Acceptance

/-!
# `Criteria.Proofs.Requests` — the query of a request

A request is assembled by steps that each change one part of a query. This module turns them into one equation:
`find_of_legal` gives every part of the query that a request with legal conditions becomes, as a function of the
request and the supply. Later proofs read the equation and never the steps.

## Contents
- **Steps.** What adding joins, groupings, sort keys and a window does to a query.
- **Parameters.** `boundBy` lists the values of a request in the order in which they are bound.
- **The equation.** `Scope.found` and `Scope.find_of_legal`.
-/

namespace Criteria

open Condition

/-! ## Steps -/

namespace Query

theorem foldl_addJoin (q : Query) (joins : List Join) :
    joins.foldl addJoin q = { q with joins := q.joins ++ joins } := by
  apply foldl_eq_of_step
  · simp
  · simp [addJoin]

theorem foldl_addGroupBy (q : Query) (expressions : List String) :
    expressions.foldl addGroupBy q = { q with groupBys := q.groupBys ++ expressions } := by
  apply foldl_eq_of_step
  · simp
  · simp [addGroupBy]

theorem foldl_addOrder (q : Query) (keys : List (String × Direction)) :
    keys.foldl (fun q k => q.addOrder k.1 k.2) q = { q with order := q.order ++ keys } := by
  apply foldl_eq_of_step
  · simp
  · simp [addOrder]

/-- The bounds of a window are set one by one, and an absent bound leaves the old one. -/
theorem applyWindow_eq (q : Query) (limit offset : Option UInt64) :
    q.applyWindow limit offset =
      { q with window := ⟨limit.or q.window.limit, offset.or q.window.offset⟩ } := by
  cases limit <;> cases offset <;> rfl

theorem applyWindow_of_unbounded {q : Query} (h : q.window = .unbounded) (limit offset : Option UInt64) :
    q.applyWindow limit offset = { q with window := ⟨limit, offset⟩ } := by
  rw [applyWindow_eq, h]
  simp [Window.unbounded]

end Query

namespace Scope

/-- The select list that extras ask for. -/
def selection (s : Scope) (extras : Extras) : List String :=
  extras.selects.elim [s.rootAlias] (·.map s.selectText)

/-- A join of an association under an alias. -/
def joinOf (s : Scope) (kind : JoinKind) (j : String × String) : Join := ⟨kind, s.resolve j.1, j.2⟩

/-- The joins that extras ask for: those that keep entities without a partner come first. -/
def joining (s : Scope) (extras : Extras) : List Join :=
  extras.leftJoins.map (s.joinOf .left) ++ extras.innerJoins.map (s.joinOf .inner)

/-- The groupings that extras ask for. -/
def grouping (s : Scope) (extras : Extras) : List String := extras.groupBys.map (s.groupByText extras)

/-- The sort keys of an order. -/
def sorting (s : Scope) (order : SortOrder) : List (String × Direction) :=
  order.map fun k => ((s.resolve k.property).text, k.direction)

theorem addJoins_eq (s : Scope) (kind : JoinKind) (q : Query) (joins : List (String × String)) :
    s.addJoins kind q joins = { q with joins := q.joins ++ joins.map (s.joinOf kind) } := by
  rw [← Query.foldl_addJoin, List.foldl_map]
  rfl

/-- Extras replace the select list if they have one, and add to the joins and the groupings. -/
theorem applyExtras_eq (s : Scope) (q : Query) (extras : Extras) :
    s.applyExtras q extras =
      { q with
        select := extras.selects.elim q.select (·.map s.selectText)
        joins := q.joins ++ s.joining extras
        groupBys := q.groupBys ++ s.grouping extras } := by
  have hgrouping : ∀ q : Query, extras.groupBys.foldl (fun q name => q.addGroupBy (s.groupByText extras name)) q =
      { q with groupBys := q.groupBys ++ s.grouping extras } := by
    intro q
    rw [← Query.foldl_addGroupBy, grouping, List.foldl_map]
  rw [applyExtras]
  simp only [addJoins_eq, hgrouping]
  cases h : extras.selects <;> simp [joining, Query.selecting]

theorem applyExtras_base (s : Scope) (extras : Extras) :
    s.applyExtras s.base extras =
      { s.base with
        select := s.selection extras, joins := s.joining extras, groupBys := s.grouping extras } := by
  rw [applyExtras_eq]
  rfl

theorem applyOrder_eq (s : Scope) (q : Query) (order : SortOrder) :
    s.applyOrder q order = { q with order := q.order ++ s.sorting order } := by
  rw [← Query.foldl_addOrder, sorting, List.foldl_map]
  rfl

end Scope

/-! ## Parameters -/

/-- The values of conditions in the order in which they are bound: the values of the restriction come first,
    and the values of one clause stand in document order. -/
def boundBy (conditions : List Condition) : List Json :=
  valuesIn (routed .restriction conditions) ++ valuesIn (routed .having conditions)

theorem length_boundBy (conditions : List Condition) : (boundBy conditions).length = drawnBy conditions :=
  List.length_append

namespace Scope

/-- Applying conditions labels their values with the next names. -/
theorem applied_bindings_eq_setAll (s : Scope) (q : Query) {conditions : List Condition} (supply : NameSupply)
    (hroom : drawnBy conditions ≤ UInt64.size) :
    (s.applied q conditions supply).bindings = q.bindings.setAll (supply.label (boundBy conditions)) := by
  rw [s.applied_bindings q supply hroom, havingBinder_supply, ← OrderedMap.setAll_append,
    ← NameSupply.label_append]
  rfl

/-- Legal conditions give a query without parameters a table in which every value stands under its own name. -/
theorem applied_of_empty (s : Scope) {q : Query} (hq : q.bindings = .empty) {conditions : List Condition}
    (supply : NameSupply) (hroom : drawnBy conditions ≤ UInt64.size) :
    s.applied q conditions supply =
      { q with
        restrictions := q.restrictions ++
          (s.compileList (routed .restriction conditions) (Binder.start supply)).1
        havings := q.havings ++
          (s.compileList (routed .having conditions) (havingBinder conditions supply)).1
        bindings := ⟨supply.label (boundBy conditions)⟩ } := by
  have htable : (s.applied q conditions supply).bindings = ⟨supply.label (boundBy conditions)⟩ := by
    rw [s.applied_bindings_eq_setAll q supply hroom, hq]
    exact Bindings.ofList_label supply _ (length_boundBy conditions ▸ hroom)
  rw [← htable]
  rfl

/-! ## The equation -/

/-- The query of a request whose conditions are legal. -/
def found (s : Scope) (r : FindRequest) (supply : NameSupply) : Query where
  entity := s.schema.name
  rootAlias := s.rootAlias
  select := s.selection r.extras
  joins := s.joining r.extras
  restrictions := (s.compileList (routed .restriction r.conditions) (Binder.start supply)).1
  groupBys := s.grouping r.extras
  havings := (s.compileList (routed .having r.conditions) (havingBinder r.conditions supply)).1
  order := s.sorting r.order
  window := ⟨r.limit, r.offset⟩
  bindings := ⟨supply.label (boundBy r.conditions)⟩

/-- **The query of a request.** Legal conditions are accepted; the extras, the order and the window have their own
    parts of the query, and the supply ends behind the names of all values. -/
theorem find_of_legal (s : Scope) (r : FindRequest) (supply : NameSupply)
    (hlegal : AllLegal (inspected r.conditions)) (hroom : drawnBy r.conditions ≤ UInt64.size) :
    (s.find r).runOn supply = (.ok (s.found r supply), supply.skip (drawnBy r.conditions)) := by
  have hflaw := firstFlaw?_eq_none_iff.mpr hlegal
  rw [firstFlaw?_inspected] at hflaw
  have happlied := s.applied_of_empty (q := s.applyExtras s.base r.extras)
    (by rw [applyExtras_base]; rfl) supply hroom
  rw [applyExtras_base] at happlied
  rw [find, Naming.runOn_bind, runOn_applyConditions, hflaw, applyExtras_base]
  simp only [Naming.runOn_pure]
  rw [happlied, applyOrder_eq, Query.applyWindow_of_unbounded rfl]
  rfl

end Scope

end Criteria
