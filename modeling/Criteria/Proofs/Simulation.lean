import Criteria.Proofs.Assembly
import Criteria.Proofs.Truth
import Mathlib.Algebra.Ring.Nat

/-!
# `Criteria.Proofs.Simulation` — a query means what its conditions say

Two interpretations are compared. One reads conditions directly: an atom by the truth of its test, a group by
its connective. The other reads the query that was built: it takes the formula of a clause and replaces every
parameter by the value that the query binds under its name. They agree, for any truth of the tests and in any
logic, however many searches are applied to the query and however many names other queries draw in between.

## Contents
- **Direct reading.** `Condition.meaning`.
- **Reading a query.** `Predicate.holds` looks parameters up in a table; `compileList_value` is the simulation
  of one list of conditions.
- **Runs.** `BuildStep` and `Scope.build`: searches applied to one query on a shared supply, and the induction along
  such a run (`Scope.build_induction`).
- **Invariant.** `Faithful`, kept by every step (`faithful_applied`) and so by every run (`faithful_build`).
- **Result.** `build_meaning`.
-/

namespace Criteria

open Condition

variable {τ : Type} [Lattice τ]

/-! ## Direct reading -/

namespace Condition

mutual

/-- The truth value of a condition when `sat` decides the tests; absent when no test is below it. -/
def meaning (s : Scope) (sat : Property → Test → Argument → τ) : Condition → Option τ
  | .group _ connective members => meaningIn s sat connective members
  | c => c.atom?.map fun a => sat (s.resolve a.property) a.test a.argument

/-- The truth value of several conditions joined by a connective. -/
def meaningIn (s : Scope) (sat : Property → Test → Argument → τ) (connective : Connective) :
    List Condition → Option τ
  | [] => none
  | c :: cs => (meaning s sat c).merge connective.join (meaningIn s sat connective cs)

end

variable (s : Scope) (sat : Property → Test → Argument → τ)

theorem meaning_of_atom {c : Condition} {a : Atom} (h : c.atom? = some a) :
    c.meaning s sat = some (sat (s.resolve a.property) a.test a.argument) := by
  cases c with
  | group clause connective members => exact absurd h (by simp [atom?])
  | _ => simp only [meaning, h, Option.map_some]

theorem meaningIn_append (connective : Connective) (cs ds : List Condition) :
    meaningIn s sat connective (cs ++ ds) =
      (meaningIn s sat connective cs).merge connective.join (meaningIn s sat connective ds) := by
  induction cs with
  | nil => simp [meaningIn]
  | cons c cs ih =>
    rw [List.cons_append, meaningIn, meaningIn, ih]
    exact ((Option.associative_merge connective.join).assoc _ _ _).symm

end Condition

/-! ## Reading a query -/

/-- The truth of a predicate when its parameter stands for the value in a table. -/
def Predicate.holds (t : Bindings) (sat : Property → Test → Argument → τ) (p : Predicate) : τ :=
  sat p.property p.test (t.argument p.operand)

omit [Lattice τ] in
theorem Renders.holds_eq {s : Scope} {t : Bindings} {a : Atom} {p : Predicate} (h : Renders s t a p)
    (sat : Property → Test → Argument → τ) :
    p.holds t sat = sat (s.resolve a.property) a.test a.argument := by
  unfold Predicate.holds
  rw [h.property, h.test, h.argument]

namespace Scope

theorem compile_value_and_list (s : Scope) (t : Bindings) (sat : Property → Test → Argument → τ) :
    (∀ c, ∀ b, t.Binds (b.supply.label c.values) →
        Formula.value (Predicate.holds t sat) (s.compile c b).1 = c.meaning s sat) ∧
      ∀ cs, ∀ b, t.Binds (b.supply.label (valuesIn cs)) → ∀ connective,
        Formula.valueIn (Predicate.holds t sat) connective (s.compileList cs b).1 =
          meaningIn s sat connective cs := by
  refine tree_induction ?atom ?group ?nil ?cons
  case atom =>
    intro c a h b ht
    rw [s.compile_of_atom h, meaning_of_atom s sat h]
    exact congrArg some ((s.renders_of_atom h ht).holds_eq sat)
  case group =>
    intro clause connective members ih b ht
    rw [values_group] at ht
    exact ih b ht connective
  case nil => intro b _ connective; rfl
  case cons =>
    intro c cs ihc ihcs b ht connective
    rw [s.label_cons, Bindings.binds_append] at ht
    show Option.merge _ (Formula.value _ (s.compile c b).1) (Formula.valueIn _ _ _) = _
    rw [ihc b ht.1, ihcs _ ht.2 connective]
    rfl

/-- **Simulation.** Under every table that binds the values of some conditions, their formulas have the
    truth value of the conditions. -/
theorem compileList_value (s : Scope) {t : Bindings} (sat : Property → Test → Argument → τ)
    (connective : Connective) {cs : List Condition} {b : Binder}
    (ht : t.Binds (b.supply.label (valuesIn cs))) :
    Formula.valueIn (Predicate.holds t sat) connective (s.compileList cs b).1 =
      meaningIn s sat connective cs :=
  (s.compile_value_and_list t sat).2 cs b ht connective

end Scope

/-! ## Runs -/

/-- What happens to a shared supply while one query is built. -/
inductive BuildStep where
  /-- A search is applied to the query. -/
  | search (conditions : List Condition)
  /-- Other queries draw names. -/
  | elsewhere (names : Nat)

/-- The number of names that a step draws. -/
def BuildStep.drawn : BuildStep → Nat
  | .search conditions => drawnBy conditions
  | .elsewhere names => names

/-- The number of names that several steps draw. -/
def drawnIn (steps : List BuildStep) : Nat := (steps.map BuildStep.drawn).sum

/-- The conditions of all searches, in their order. -/
def searched (steps : List BuildStep) : List Condition :=
  steps.flatMap fun
    | .search conditions => conditions
    | .elsewhere _ => []

/-- Takes steps one after the other. -/
def Scope.build (s : Scope) : List BuildStep → Query → Naming Query
  | [], q => pure q
  | .search conditions :: steps, q => do
    let q ← s.applyConditions q conditions
    s.build steps q
  | .elsewhere names :: steps, q => do
    modify fun supply => supply.skip names
    s.build steps q

/-- **Induction along a run.** A fact about a query, the conditions searched for so far, the supply and the number of
    names that are still to come holds at the end of a run if it holds at the beginning and every step keeps it. -/
theorem Scope.build_induction (Inv : Query → List Condition → NameSupply → Nat → Prop) {s : Scope}
    (elsewhere : ∀ {q cs supply names room}, Inv q cs supply (names + room) → Inv q cs (supply.skip names) room)
    (search : ∀ {q cs new supply room}, Inv q cs supply (drawnBy new + room) → drawnBy new + room ≤ UInt64.size →
      (s.applyConditions q new).runOn supply = (.ok (s.applied q new supply), supply.skip (drawnBy new)) →
        Inv (s.applied q new supply) (cs ++ new) (supply.skip (drawnBy new)) room)
    {q q' : Query} (cs : List Condition) {supply supply' : NameSupply} {room : Nat} (steps : List BuildStep)
    (h : Inv q cs supply (drawnIn steps + room)) (hroom : drawnIn steps + room ≤ UInt64.size)
    (hrun : (s.build steps q).runOn supply = (.ok q', supply')) : Inv q' (cs ++ searched steps) supply' room := by
  induction steps generalizing q cs supply with
  | nil =>
    obtain ⟨hq, rfl⟩ := Prod.mk.inj hrun
    obtain rfl := Except.ok.inj hq
    simpa [drawnIn, searched] using h
  | cons step steps ih =>
    -- the room that a step leaves is what the later steps need
    have hsum : drawnIn (step :: steps) = step.drawn + drawnIn steps := List.sum_cons
    rw [hsum, Nat.add_assoc] at h hroom
    cases step with
    | search conditions =>
      show Inv q' (cs ++ (conditions ++ searched steps)) supply' room
      rw [← List.append_assoc]
      obtain ⟨q₁, supply₁, hstep, hrest⟩ := Naming.bind_ok hrun
      obtain ⟨rfl, rfl⟩ := Scope.applyConditions_ok hstep
      exact ih _ (search h hroom hstep) (by omega) hrest
    | elsewhere names => exact ih _ (elsewhere h) (by omega) hrun

/-! ## Invariant -/

/-- A query is faithful to the conditions applied so far when both clauses have the truth value of the
    conditions routed to them, under its table and under every table that keeps its bindings. The next
    `room` names of the supply are not bound in it, so that later searches cannot disturb it. -/
structure Faithful (s : Scope) (sat : Property → Test → Argument → τ) (q : Query)
    (cs : List Condition) (supply : NameSupply) (room : Nat) : Prop where
  restriction : ∀ t, q.bindings.Keeps t →
    Formula.valueIn (Predicate.holds t sat) .and q.restrictions =
      meaningIn s sat .and (routed .restriction cs)
  having : ∀ t, q.bindings.Keeps t →
    Formula.valueIn (Predicate.holds t sat) .and q.havings = meaningIn s sat .and (routed .having cs)
  free : q.bindings.Free supply room

section Invariant

variable {s : Scope} {sat : Property → Test → Argument → τ} {q : Query} {cs new : List Condition}
  {supply : NameSupply} {room : Nat}

theorem faithful_base (s : Scope) (sat : Property → Test → Argument → τ) (supply : NameSupply)
    (room : Nat) : Faithful s sat s.base [] supply room :=
  ⟨fun _ _ => rfl, fun _ _ => rfl, Bindings.free_empty supply room⟩

/-- Names drawn elsewhere do not disturb a query. -/
theorem Faithful.elsewhere {k : Nat} (h : Faithful s sat q cs supply (k + room)) :
    Faithful s sat q cs (supply.skip k) room :=
  ⟨h.restriction, h.having, h.free.skip⟩

/-- **One search.** The new parameters keep the old ones, so the old formulas keep their value, and the new
    formulas have the value of the new conditions because the final table binds all their values. -/
theorem faithful_applied (h : Faithful s sat q cs supply (drawnBy new + room))
    (hroom : drawnBy new + room ≤ UInt64.size) :
    Faithful s sat (s.applied q new supply) (cs ++ new) (supply.skip (drawnBy new)) room := by
  obtain ⟨hkeeps, hbinds, hbinds', hfree⟩ := s.applied_bindings_spec h.free hroom
  constructor
  · intro t ht
    -- the old conditions by the invariant, the new ones by the simulation
    show Formula.valueIn _ _ (q.restrictions ++ _) = _
    rw [Formula.valueIn_append, routed_append, meaningIn_append, h.restriction t (hkeeps.trans ht)]
    rw [s.compileList_value sat .and (hbinds.mono ht)]
  · intro t ht
    show Formula.valueIn _ _ (q.havings ++ _) = _
    rw [Formula.valueIn_append, routed_append, meaningIn_append, h.having t (hkeeps.trans ht)]
    rw [s.compileList_value sat .and (hbinds'.mono ht)]
  · exact hfree

/-- **Runs.** Along a run the invariant is kept, as long as the names drawn fit into one turn of the
    counter. -/
theorem faithful_build {q' : Query} {supply' : NameSupply} (steps : List BuildStep)
    (h : Faithful s sat q cs supply (drawnIn steps + room))
    (hroom : drawnIn steps + room ≤ UInt64.size)
    (hrun : (s.build steps q).runOn supply = (.ok q', supply')) :
    Faithful s sat q' (cs ++ searched steps) supply' room :=
  Scope.build_induction (Faithful s sat) Faithful.elsewhere (fun h hroom _ => faithful_applied h hroom) cs steps h hroom
    hrun

end Invariant

/-! ## Result -/

/-- **Compilation is correct.** Let any searches be applied to the query for all entities, on a supply that
    other queries share and that hands out fewer names than its counter has values. Then the restriction of
    the query, with every parameter replaced by the value bound under its name, has the truth value of the
    conjunction of all conditions routed to the restriction, and likewise after grouping. An absent formula
    stands for no condition with a test below it. -/
theorem build_meaning (s : Scope) (sat : Property → Test → Argument → τ) (stem : String)
    (steps : List BuildStep) (q : Query) (supply : NameSupply)
    (hrun : (s.build steps s.base).runOn (NameSupply.ofStem stem) = (.ok q, supply))
    (hnames : drawnIn steps < UInt64.size) :
    q.restriction.bind (Formula.value (Predicate.holds q.bindings sat)) =
        meaningIn s sat .and (routed .restriction (searched steps)) ∧
      q.having.bind (Formula.value (Predicate.holds q.bindings sat)) =
        meaningIn s sat .and (routed .having (searched steps)) := by
  have hbase := faithful_base s sat (NameSupply.ofStem stem) (drawnIn steps + 0)
  have hfinal := faithful_build steps hbase (Nat.le_of_lt hnames) hrun
  rw [List.nil_append] at hfinal
  have hkeeps : q.bindings.Keeps q.bindings := .refl q.bindings
  constructor
  · rw [Query.restriction, Formula.value_conjunction]
    exact hfinal.restriction q.bindings hkeeps
  · rw [Query.having, Formula.value_conjunction]
    exact hfinal.having q.bindings hkeeps

theorem build_meaning_mixed :
    let s : Scope := ⟨"entity", ⟨"Product", "product", ["name", "price"], [], ["id"]⟩⟩
    let sat : Property → Test → Argument → Kleene := fun _ test argument =>
      if test = .like then .unknown
      else if argument = .parameter (some (.int 2)) then .yes else .no
    let steps : List BuildStep :=
      [.search [.compare .having .less "total" (.int 2),
          .group .restriction .or [.group .restriction .and [], .bare "price" (.int 1),
            .like "name" (.string "%a%")]],
        .elsewhere 3, .search [.bare "price" (.int 2), .group .having .or []]]
    ∃ q supply, (s.build steps s.base).runOn (NameSupply.ofStem "p") = (.ok q, supply) ∧
      drawnIn steps < UInt64.size ∧
      q.restriction.bind (Formula.value (Predicate.holds q.bindings sat)) = some .unknown ∧
      q.having.bind (Formula.value (Predicate.holds q.bindings sat)) = some .yes := by
  intro s sat steps
  refine ⟨_, _, rfl, by decide, ?_⟩
  have h := build_meaning s sat "p" steps _ _ rfl (by decide)
  exact ⟨h.1.trans (by decide), h.2.trans (by decide)⟩

end Criteria
