import Criteria.Proofs.Requests
import Criteria.Proofs.Simulation

/-!
# `Criteria.Proofs.Rebinding` — what a search writes into a query that is in use

A query may hold parameters already: from searches on the same supply, from searches on another supply with the
same stem, or bound by hand. A search that is applied to it draws the next names of its own supply without asking
which of them are taken. It therefore writes exactly these names, and a name that was taken takes the new value.

## Contents
- **One search.** `Scope.Extended`: formulas are added to both clauses, the names drawn are bound to the values of
  their own conditions, and everything else is as it was.
- **Runs.** `free_build`: names that are free before a run of searches are free after it, but for those drawn.
- **Result.** `applyConditions_writes_drawn_names`, and a query in which a name was taken.
-/

namespace Criteria

open Condition NameSupply Scope

/-! ## Tables -/

namespace Bindings

/-- Labels bind every value under its own name, whatever the table held before. -/
theorem binds_setAll_label (t : Bindings) (s : NameSupply) {vs : List Json} (hk : vs.length ≤ UInt64.size) :
    Binds (t.setAll (s.label vs)) (s.label vs) := by
  intro e he
  refine OrderedMap.get?_setAll_of_mem ?_ he
  rw [label_keys]
  exact s.nodup_names hk

/-- A table with free names has no value under any label. -/
theorem Free.get?_label {t : Bindings} {s : NameSupply} {vs : List Json} (h : Free t s vs.length)
    {e : String × Json} (he : e ∈ s.label vs) : t.get? e.1 = none := by
  have hname : e.1 ∈ s.names vs.length := s.label_keys vs ▸ List.mem_map_of_mem he
  rw [names_eq_map] at hname
  obtain ⟨i, hi, hi'⟩ := List.mem_map.mp hname
  rw [← hi']
  exact h i (List.mem_range.mp hi)

end Bindings

namespace Scope

/-! ## One search -/

/-- `q'` is `q` after a search: it has two lists of formulas more, one for each clause, and its table differs only
    under the names that the search draws. -/
structure Extended (s : Scope) (conditions : List Condition) (supply : NameSupply) (q q' : Query)
    (restrictions havings : List Formula) : Prop where
  query : q' =
    { q with
      restrictions := q.restrictions ++ restrictions
      havings := q.havings ++ havings
      bindings := q'.bindings }
  /-- The new predicates have the names drawn as their parameters, each of them once. -/
  parameters : (Formula.leavesIn restrictions ++ Formula.leavesIn havings).filterMap (·.operand.parameter?) =
    supply.names (drawnBy conditions)
  /-- Each new predicate reads the value of the condition that it stands for. -/
  restriction : List.Forall₂ (Renders s q'.bindings) (atomsIn (routed .restriction conditions))
    (Formula.leavesIn restrictions)
  having : List.Forall₂ (Renders s q'.bindings) (atomsIn (routed .having conditions)) (Formula.leavesIn havings)
  /-- Each name drawn is bound to the value that it was drawn for. -/
  drawn : q'.bindings.Binds (supply.label (boundBy conditions))
  /-- Every other name reads as before. -/
  frame : ∀ name, name ∉ supply.names (drawnBy conditions) → q'.bindings.get? name = q.bindings.get? name

/-- The names of both clauses are those of the whole search. -/
theorem label_boundBy (conditions : List Condition) (supply : NameSupply) :
    supply.label (boundBy conditions) =
      supply.label (valuesIn (routed .restriction conditions)) ++
        (havingBinder conditions supply).supply.label (valuesIn (routed .having conditions)) := by
  rw [boundBy, label_append, havingBinder_supply]

/-- The keys of the labels of a search are the names that it draws. -/
theorem keys_boundBy (conditions : List Condition) (supply : NameSupply) :
    (supply.label (boundBy conditions)).map Prod.fst = supply.names (drawnBy conditions) := by
  rw [label_keys, length_boundBy]

/-- Applying conditions extends a query, whatever names it holds. -/
theorem extended_applied (s : Scope) (q : Query) {conditions : List Condition} (supply : NameSupply)
    (hroom : drawnBy conditions ≤ UInt64.size) :
    s.Extended conditions supply q (s.applied q conditions supply)
      (s.compileList (routed .restriction conditions) (Binder.start supply)).1
      (s.compileList (routed .having conditions) (havingBinder conditions supply)).1 := by
  have htable := s.applied_bindings_eq_setAll q supply hroom
  have hbinds : (s.applied q conditions supply).bindings.Binds (supply.label (boundBy conditions)) :=
    htable ▸ Bindings.binds_setAll_label _ supply (length_boundBy conditions ▸ hroom)
  -- the labels of both clauses stand one behind the other
  have hclauses := hbinds
  rw [label_boundBy, Bindings.binds_append] at hclauses
  constructor
  case query => rfl
  case parameters =>
    rw [← keys_boundBy, label_boundBy, List.filterMap_append, compileList_parameters, compileList_parameters,
      List.map_append, label_keys, label_keys]
    rfl
  case restriction => exact s.compileList_renders _ hclauses.1
  case having => exact s.compileList_renders _ hclauses.2
  case drawn => exact hbinds
  case frame =>
    intro name hname
    rw [← keys_boundBy] at hname
    rw [htable, OrderedMap.get?_setAll_of_not_mem hname]

/-- A search keeps the bindings of a query exactly when it repeats the values of the names that are taken. -/
theorem keeps_applied_iff (s : Scope) (q : Query) {conditions : List Condition} (supply : NameSupply)
    (hroom : drawnBy conditions ≤ UInt64.size) :
    q.bindings.Keeps (s.applied q conditions supply).bindings ↔
      ∀ e ∈ supply.label (boundBy conditions), ∀ old, q.bindings.get? e.1 = some old → old = e.2 := by
  rw [s.applied_bindings_eq_setAll q supply hroom]
  refine OrderedMap.keeps_setAll_iff ?_
  rw [keys_boundBy]
  exact supply.nodup_names hroom

/-! ## Runs -/

/-- Along a run on one supply the names to come stay free. -/
theorem free_build (s : Scope) {q q' : Query} {supply supply' : NameSupply} {room : Nat} (steps : List BuildStep)
    (hfree : q.bindings.Free supply (drawnIn steps + room)) (hroom : drawnIn steps + room ≤ UInt64.size)
    (hrun : (s.build steps q).runOn supply = (.ok q', supply')) : q'.bindings.Free supply' room := by
  refine build_induction (fun q _ supply room => q.bindings.Free supply room) Bindings.Free.skip ?search [] steps
    hfree hroom hrun
  case search =>
    -- a search takes the names at the front of the room, and they were free
    intro q _ conditions supply room hfree hroom _
    obtain ⟨-, -, -, hlater⟩ := s.applied_bindings_spec hfree hroom
    exact hlater

/-! ## Result -/

/-- **A search writes the names that it draws, and nothing else.** Let a search be applied to any query. Names that
    it does not draw keep their values, and its own predicates read the values of their own conditions, taken or
    not. So all bindings are kept exactly when no name drawn stands for another value already; this is so for a
    query whose searches share the supply, if none of the names that the supply hands out were bound before. -/
theorem applyConditions_writes_drawn_names (s : Scope) (q q' : Query) (conditions : List Condition)
    (supply after : NameSupply) (hrun : (s.applyConditions q conditions).runOn supply = (.ok q', after))
    (hroom : drawnBy conditions ≤ UInt64.size) :
    (∃ restrictions havings, s.Extended conditions supply q q' restrictions havings) ∧
      (q.bindings.Keeps q'.bindings ↔
        ∀ e ∈ supply.label (boundBy conditions), ∀ old, q.bindings.get? e.1 = some old → old = e.2) ∧
      ∀ steps start q₀, q₀.bindings.Free start (drawnIn steps + drawnBy conditions) →
        drawnIn steps + drawnBy conditions ≤ UInt64.size →
        (s.build steps q₀).runOn start = (.ok q, supply) → q.bindings.Keeps q'.bindings := by
  obtain ⟨rfl, -⟩ := applyConditions_ok hrun
  refine ⟨⟨_, _, s.extended_applied q supply hroom⟩, s.keeps_applied_iff q supply hroom, ?_⟩
  intro steps start q₀ hfree hsum hbuilt
  have hnext := s.free_build steps hfree hsum hbuilt
  rw [← length_boundBy] at hnext
  rw [s.keeps_applied_iff q supply hroom]
  intro e he old hold
  rw [hnext.get?_label he] at hold
  exact absurd hold (by simp)

/-- Of two names bound by hand the first is drawn by the search. -/
theorem applyConditions_writes_drawn_names_taken :
    let s : Scope := ⟨"entity", ⟨"Product", "product", ["name", "price"], [], ["id"]⟩⟩
    let q := (s.base.bindOne "param_1" (.int 5)).bindOne "least" (.int 7)
    let conditions : List Condition := [.compare .having .less "total" (.int 2), .bare "name" (.string "bike")]
    ∃ q', (s.applyConditions q conditions).runOn (NameSupply.ofStem "param") = (.ok q', ⟨"param", 3⟩) ∧
      drawnBy conditions ≤ UInt64.size ∧ ¬ q.bindings.Keeps q'.bindings ∧
      q'.bindings.get? "least" = some (.int 7) ∧ q'.bindings.get? "param_1" = some (.string "bike") := by
  intro s q conditions
  refine ⟨_, rfl, by decide, ?_⟩
  obtain ⟨⟨_, _, hextended⟩, hkeeps, -⟩ :=
    s.applyConditions_writes_drawn_names q _ conditions (NameSupply.ofStem "param") _ rfl (by decide)
  refine ⟨fun h => ?_, ?_, hextended.drawn ("param_1", .string "bike") (by decide)⟩
  · exact absurd (hkeeps.mp h ("param_1", .string "bike") (by decide) (.int 5) rfl) (by decide)
  · exact (hextended.frame "least" (by decide)).trans rfl

/-- A name that is bound by hand and read by a predicate of the query is bound anew by the next search: both
    predicates then read the new value. -/
theorem applyConditions_rebinds_taken_name :
    let s : Scope := ⟨"entity", ⟨"Product", "product", ["name", "price"], [], ["id"]⟩⟩
    let dear : Predicate := ⟨.qualified "entity" "price", .compare .equal, .parameter "param_1"⟩
    let named : Predicate := ⟨.qualified "entity" "name", .compare .equal, .parameter "param_1"⟩
    let q := (s.base.addRestriction (.leaf dear)).bindOne "param_1" (.int 5)
    ∃ q', (s.applyConditions q [.bare "name" (.string "bike")]).runOn (NameSupply.ofStem "param") =
        (.ok q', ⟨"param", 2⟩) ∧
      q.bindings.get? "param_1" = some (.int 5) ∧ q'.bindings.get? "param_1" = some (.string "bike") ∧
      q'.restrictions = [.leaf dear, .leaf named] := by
  intro s dear named q
  exact ⟨_, rfl, rfl, rfl, rfl⟩

end Scope

end Criteria
