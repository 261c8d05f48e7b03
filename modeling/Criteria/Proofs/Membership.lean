import Criteria.Condition.Reader
import Criteria.Proofs.Acceptance
import Criteria.Proofs.Lists
import Criteria.Proofs.Simulation

/-!
# `Criteria.Proofs.Membership` — what membership tests range over

A membership test comes from an operator with a list, whose values are written into the query, or from a property
beside an array, which is bound to a parameter. A test over no values is an error in most engines, and holds nowhere or
everywhere in the others. The compiler refuses an empty list of an operator, but not an empty array beside a property.

## Contents
- **Ranges.** `Argument.range?` gives the values of a test, `Query.range?` those of a predicate in a query;
  `Query.predicates` lists the predicates of both clauses.
- **Nodes.** `range_of_legal`: the range of a legal node is empty only for a bare property beside the empty array.
- **Runs.** `Rendered`: along a run of searches, the predicates of a query render the atoms of all conditions.
- **Predicates.** What this says of a single predicate (`Rendered.range`, `Rendered.range_of_bare`).
- **Result.** `memberships_range`, and a query with a test over no values.
-/

namespace Criteria

open Condition

/-! ## Ranges -/

/-- The two tests for membership. -/
def Test.IsMembership (test : Test) : Prop := test = .inList ∨ test = .notInList

instance (test : Test) : Decidable test.IsMembership := inferInstanceAs (Decidable (_ ∨ _))

/-- The values that an argument lists. -/
def Argument.range? : Argument → Option (List Json)
  | .literals values => some values
  | .parameter (some (.array items)) => some items
  | .parameter _ | .absent => none

namespace Query

/-- The predicates of both clauses, at whatever depth they stand. -/
def predicates (q : Query) : List Predicate :=
  (q.restriction.map Formula.leaves).getD [] ++ (q.having.map Formula.leaves).getD []

/-- The values that a predicate of a query ranges over: those written into it, or the items of the array that its
    parameter is bound to. -/
def range? (q : Query) (p : Predicate) : Option (List Json) := (q.bindings.argument p.operand).range?

theorem predicates_eq (q : Query) : q.predicates = Formula.leavesIn q.restrictions ++ Formula.leavesIn q.havings := by
  rw [predicates, restriction, having, Formula.leaves_conjunction, Formula.leaves_conjunction]

end Query

/-! ## Nodes -/

namespace Condition

/-- **The range of a legal node.** Every membership test of a legal node lists values; only a bare property may list
    none. -/
theorem range_of_legal {clause : Clause} {n : Condition} {a : Atom} (hatom : n.atom? = some a)
    (hlegal : Legal clause n) (htest : a.test.IsMembership) :
    ∃ values, a.argument.range? = some values ∧
      (values = [] ↔ a.test = .inList ∧ n = .bare a.property (.array [])) := by
  -- a list of an operator is not empty in a legal node; an array beside a property may be
  cases n with
  | bare property value =>
    cases value with
    | array items =>
      injection hatom with hatom
      subst hatom
      refine ⟨items, rfl, ?_⟩
      simp
    | null | bool | number | string | object =>
      injection hatom with hatom
      subst hatom
      exact absurd htest (by simp [Test.IsMembership])
  | inList property values | notInList property values =>
    injection hatom with hatom
    subst hatom
    exact ⟨values, rfl, iff_of_false hlegal.shaped (fun h => nomatch h.2)⟩
  | group clause connective members => exact absurd hatom nofun
  | like | isNull | isNotNull | compare =>
    injection hatom with hatom
    subst hatom
    exact absurd htest (by simp [Test.IsMembership])

end Condition

/-! ## Runs -/

/-- The predicates of a query render the atoms of the conditions that were applied to it, clause by clause, under its
    table and under every table that keeps its bindings. All these conditions are legal, and the next `room` names of
    the supply are not bound. -/
structure Rendered (s : Scope) (q : Query) (cs : List Condition) (supply : NameSupply) (room : Nat) : Prop where
  restriction : ∀ t, q.bindings.Keeps t →
    List.Forall₂ (Renders s t) (atomsIn (routed .restriction cs)) (Formula.leavesIn q.restrictions)
  having : ∀ t, q.bindings.Keeps t →
    List.Forall₂ (Renders s t) (atomsIn (routed .having cs)) (Formula.leavesIn q.havings)
  legal : AllLegal (inspected cs)
  free : q.bindings.Free supply room

namespace Rendered

variable {s : Scope} {q : Query} {cs new : List Condition} {supply : NameSupply} {room : Nat}

/-- A query without formulas renders the empty search. -/
theorem of_formless (hrestrictions : q.restrictions = []) (hhavings : q.havings = [])
    (hfree : q.bindings.Free supply room) : Rendered s q [] supply room := by
  constructor
  case restriction =>
    intro t _
    rw [hrestrictions]
    exact .nil
  case having =>
    intro t _
    rw [hhavings]
    exact .nil
  case legal => exact nofun
  case free => exact hfree

theorem elsewhere {names : Nat} (h : Rendered s q cs supply (names + room)) :
    Rendered s q cs (supply.skip names) room :=
  ⟨h.restriction, h.having, h.legal, h.free.skip⟩

/-- Conditions that are compiled behind others add their own predicates behind the others. -/
theorem renders_append {clause : Clause} {t : Bindings} {fs : List Formula} {b : Binder}
    (h : List.Forall₂ (Renders s t) (atomsIn (routed clause cs)) (Formula.leavesIn fs))
    (ht : t.Binds (b.supply.label (valuesIn (routed clause new)))) :
    List.Forall₂ (Renders s t) (atomsIn (routed clause (cs ++ new)))
      (Formula.leavesIn (fs ++ (s.compileList (routed clause new) b).1)) := by
  rw [routed_append, atomsIn_append, Formula.leavesIn_append]
  exact List.rel_append h (s.compileList_renders _ ht)

/-- **One search.** The old predicates keep what their parameters stand for, and the new ones render the new
    conditions, which were found to be legal. -/
theorem applied (h : Rendered s q cs supply (drawnBy new + room)) (hroom : drawnBy new + room ≤ UInt64.size)
    (hrun : (s.applyConditions q new).runOn supply = (.ok (s.applied q new supply), supply.skip (drawnBy new))) :
    Rendered s (s.applied q new supply) (cs ++ new) (supply.skip (drawnBy new)) room := by
  obtain ⟨hkeeps, hbinds, hbinds', hfree⟩ := s.applied_bindings_spec h.free hroom
  constructor
  case restriction =>
    intro t ht
    exact renders_append (h.restriction t (hkeeps.trans ht)) (hbinds.mono ht)
  case having =>
    intro t ht
    exact renders_append (h.having t (hkeeps.trans ht)) (hbinds'.mono ht)
  case legal =>
    have hnew : AllLegal (inspected new) := ((s.vets_applyConditions q new).accepts supply).mp ⟨_, _, hrun⟩
    exact allLegal_inspected_append.mpr ⟨h.legal, hnew⟩
  case free => exact hfree

end Rendered

/-! ## Predicates -/

namespace Rendered

variable {s : Scope} {q : Query} {cs : List Condition} {supply : NameSupply} {room : Nat}

/-- The predicates of a query are the atoms of the nodes that were judged, in the same order. -/
theorem predicates (h : Rendered s q cs supply room) :
    List.Forall₂ (Renders s q.bindings) ((inspected cs).filterMap fun n => n.2.atom?) q.predicates := by
  have hatoms : (inspected cs).filterMap (fun n => n.2.atom?) =
      atomsIn (routed .restriction cs) ++ atomsIn (routed .having cs) := by
    rw [inspected, List.filterMap_append, inspectedIn, inspectedIn, List.filterMap_map, List.filterMap_map]
    rfl
  have hkeeps : q.bindings.Keeps q.bindings := .refl q.bindings
  rw [hatoms, q.predicates_eq]
  exact List.rel_append (h.restriction _ hkeeps) (h.having _ hkeeps)

/-- A membership test of the query lists values, unless it stands for a bare property beside the empty array. -/
theorem range (h : Rendered s q cs supply room) {p : Predicate} (hp : p ∈ q.predicates)
    (htest : p.test.IsMembership) :
    ∃ values, q.range? p = some values ∧ (values = [] →
      p.test = .inList ∧ ∃ property, .bare property (.array []) ∈ nodesIn cs ∧ p.property = s.resolve property) := by
  obtain ⟨a, ha, hrenders⟩ := (exists_of_forall₂ h.predicates).2 p hp
  obtain ⟨⟨clause, n⟩, hn, hatom⟩ := List.mem_filterMap.mp ha
  rw [hrenders.test] at htest ⊢
  obtain ⟨values, hvalues, hempty⟩ := range_of_legal hatom (h.legal _ hn) htest
  refine ⟨values, ?_, fun hnil => ?_⟩
  · rw [Query.range?, hrenders.argument, hvalues]
  · obtain ⟨hin, rfl⟩ := hempty.mp hnil
    exact ⟨hin, a.property, exists_mem_inspected_iff.mp ⟨clause, hn⟩, hrenders.property⟩

/-- Every bare property beside the empty array becomes a membership test over no values. -/
theorem range_of_bare (h : Rendered s q cs supply room) {property : String}
    (hbare : .bare property (.array []) ∈ nodesIn cs) :
    ∃ p ∈ q.predicates, p.test = .inList ∧ q.range? p = some [] := by
  obtain ⟨clause, hn⟩ := exists_mem_inspected_iff.mpr hbare
  have ha : Atom.mk property .inList (.parameter (some (.array []))) ∈ (inspected cs).filterMap fun n => n.2.atom? :=
    List.mem_filterMap.mpr ⟨_, hn, rfl⟩
  obtain ⟨p, hp, hrenders⟩ := (exists_of_forall₂ h.predicates).1 _ ha
  refine ⟨p, hp, hrenders.test, ?_⟩
  rw [Query.range?, hrenders.argument]
  rfl

end Rendered

/-! ## Result -/

/-- **Membership tests range over values, but for bare arrays.** Let searches be applied to a query without formulas,
    on a supply that other queries share and none of whose names the query has bound. Then every membership test of
    either clause, at whatever depth, lists values: written into the query, or in the array that its parameter is bound
    to. It lists none only where it stands for a bare property beside the empty array, which no check refuses. So every
    test ranges over at least one value exactly when no condition has such a property below it. -/
theorem memberships_range (s : Scope) (steps : List BuildStep) (start supply : NameSupply) (q₀ q : Query)
    (hformless : q₀.restrictions = [] ∧ q₀.havings = []) (hfree : q₀.bindings.Free start (drawnIn steps))
    (hnames : drawnIn steps ≤ UInt64.size) (hrun : (s.build steps q₀).runOn start = (.ok q, supply)) :
    (∀ p ∈ q.predicates, p.test.IsMembership → ∃ values, q.range? p = some values ∧ (values = [] →
        p.test = .inList ∧
          ∃ property, .bare property (.array []) ∈ nodesIn (searched steps) ∧ p.property = s.resolve property)) ∧
      ((∀ p ∈ q.predicates, p.test.IsMembership → ∃ v vs, q.range? p = some (v :: vs)) ↔
        ∀ property, .bare property (.array []) ∉ nodesIn (searched steps)) := by
  have hstart : Rendered s q₀ [] start (drawnIn steps + 0) := .of_formless hformless.1 hformless.2 hfree
  have hfinal : Rendered s q (searched steps) supply 0 :=
    Scope.build_induction (Rendered s) Rendered.elsewhere Rendered.applied [] steps hstart hnames hrun
  refine ⟨fun p hp htest => hfinal.range hp htest, ?_, ?_⟩
  · -- an empty array beside a property is the range of some test
    intro hranges property hbare
    obtain ⟨p, hp, hin, hnone⟩ := hfinal.range_of_bare hbare
    obtain ⟨v, vs, hsome⟩ := hranges p hp (.inl hin)
    rw [hnone] at hsome
    cases hsome
  · intro hbare p hp htest
    obtain ⟨values, hvalues, hempty⟩ := hfinal.range hp htest
    cases values with
    | nil =>
      obtain ⟨-, property, hnode, -⟩ := hempty rfl
      exact absurd hnode (hbare property)
    | cons v vs => exact ⟨v, vs, hvalues⟩

/-- Lists of operators and arrays beside properties, in both clauses and in groups, from two searches between which
    another query draws names. -/
theorem memberships_range_grouped :
    let s : Scope := ⟨"entity", ⟨"Product", "product", ["name", "price"], [], ["id"]⟩⟩
    let steps : List BuildStep :=
      [.search [.group .restriction .or [.bare "price" (.array [.int 1, .int 2]), .notInList "name" [.string ""]]],
        .elsewhere 3, .search [.group .having .and [.bare "total" (.array [.null])], .inList "id" [.int 1]]]
    let q₀ := s.base.selecting ["COUNT(entity)"]
    ∃ q supply, (q₀.restrictions = [] ∧ q₀.havings = []) ∧
      q₀.bindings.Free (NameSupply.ofStem "p") (drawnIn steps) ∧ drawnIn steps ≤ UInt64.size ∧
      (s.build steps q₀).runOn (NameSupply.ofStem "p") = (.ok q, supply) ∧
      ∀ p ∈ q.predicates, p.test.IsMembership → ∃ v vs, q.range? p = some (v :: vs) := by
  intro s steps q₀
  have hfree : q₀.bindings.Free (NameSupply.ofStem "p") (drawnIn steps) := Bindings.free_empty _ _
  refine ⟨_, _, ⟨rfl, rfl⟩, hfree, by decide, rfl, ?_⟩
  have h := memberships_range s steps (NameSupply.ofStem "p") _ q₀ _ ⟨rfl, rfl⟩ hfree (by decide) rfl
  refine h.2.mpr fun property hbare => ?_
  simp [steps, searched, nodesIn, nodes] at hbare

/-- An empty array beside a property is read and accepted, and makes a test over no values. An operator with an empty
    list is refused. -/
theorem membership_over_empty_array :
    let s : Scope := ⟨"entity", ⟨"Product", "product", ["name", "position"], [], ["id"]⟩⟩
    let conditions : List Condition := [.bare "position" (.array [])]
    let p : Predicate := ⟨.qualified "entity" "position", .inList, .parameter "param_1"⟩
    ofJson (.object [("position", .array [])]) = .ok conditions ∧
      (∃ q, (s.applyConditions s.base conditions).runOn (NameSupply.ofStem "param") = (.ok q, ⟨"param", 2⟩) ∧
        q.predicates = [p] ∧ p.test.IsMembership ∧ q.range? p = some []) ∧
      (s.applyConditions s.base [.inList "position" []]).runOn (NameSupply.ofStem "param") =
        (.error (.specification (.emptyList .inList "position")), NameSupply.ofStem "param") := by
  intro s conditions p
  exact ⟨rfl, ⟨_, rfl, rfl, .inl rfl, rfl⟩, rfl⟩

end Criteria
