import Criteria.Facade
import Criteria.Proofs.Assembly

/-!
# `Criteria.Proofs.Acceptance` — which conditions are accepted, and what a refusal leaves behind

Whether conditions are accepted is decided node by node, before the first parameter is named. This module says
what a legal node is and why any other is refused, without the functions that find it out; then it shows that
every computation that takes conditions accepts exactly the legal ones, and that a refusal names the first
illegal node and leaves no trace.

## Contents
- **Nodes.** `Legal` and `Refused` judge one node in a clause; `nodeFlaw?` decides them.
- **Order of inspection.** `inspected` lists the nodes of conditions in the order in which they are judged, and
  `FirstRefused` singles out the first that is not legal. The checks of the compiler follow that order
  (`flaw?_eq`, `firstFlaw?_inspected`).
- **Vetting.** `Naming.Vets`: a computation that succeeds exactly for legal nodes and fails without a trace.
  `Session.Refuses` is the half of it that still holds once an engine is asked.
- **Result.** `conditions_vetted`.
-/

namespace Criteria

namespace Condition

/-! ## Nodes -/

/-- The operand of a node has a shape that can be compared. -/
def WellShaped : Condition → Prop
  | .bare _ value => value.isObject = false
  | .compare _ _ _ value => value.isArray = false ∧ value.isObject = false
  | .like _ pattern => pattern.isArray = false ∧ pattern.isObject = false
  | .inList _ values => values ≠ []
  | .notInList _ values => values ≠ []
  | .isNull _ | .isNotNull _ | .group _ _ _ => True

/-- A node belongs to no other clause. -/
def Placed (c : Condition) (clause : Clause) : Prop := ∀ own, c.clause? = some own → own = clause

/-- A node that may stand in a clause: it is in its place, and its operand is well shaped. -/
structure Legal (clause : Clause) (c : Condition) : Prop where
  placed : c.Placed clause
  shaped : c.WellShaped

/-- What is said of an operand that has not the right shape. -/
inductive Malformed : Condition → SpecificationFault → Prop where
  | mapping {property : String} {value : Json} (h : value.isObject = true) :
      Malformed (.bare property value) (.mappingValue property)
  | operand {clause : Clause} {comparison : Comparison} {property : String} {value : Json}
      (h : value.isArray = true ∨ value.isObject = true) :
      Malformed (.compare clause comparison property value)
        (.compositeOperand (.compare clause comparison) property)
  | pattern {property : String} {pattern : Json} (h : pattern.isArray = true ∨ pattern.isObject = true) :
      Malformed (.like property pattern) (.compositePattern property)
  | inList {property : String} : Malformed (.inList property []) (.emptyList .inList property)
  | notInList {property : String} : Malformed (.notInList property []) (.emptyList .notInList property)

/-- Why a node is refused in a clause. The shape of its operand only counts where the node is in its place. -/
inductive Refused (clause : Clause) (c : Condition) : SpecificationFault → Prop where
  | misplaced {keyword : Keyword} (hkeyword : c.keyword? = some keyword) (hclause : keyword.clause ≠ clause) :
      Refused clause c (.misplaced keyword clause)
  | malformed {cause : SpecificationFault} (hplaced : c.Placed clause) (hshape : Malformed c cause) :
      Refused clause c cause

theorem shapeFlaw?_eq_none_iff {c : Condition} : c.shapeFlaw? = none ↔ c.WellShaped := by
  cases c <;> simp [shapeFlaw?, WellShaped, Json.isComposite]

theorem shapeFlaw?_eq_some_iff {c : Condition} {cause : SpecificationFault} :
    c.shapeFlaw? = some cause ↔ Malformed c cause := by
  constructor
  · intro h
    -- every form of condition has one flaw at most
    cases c with
    | bare property value =>
      obtain ⟨hvalue, rfl⟩ : value.isObject = true ∧ .mappingValue property = cause := by
        simpa [shapeFlaw?] using h
      exact .mapping hvalue
    | compare clause comparison property value =>
      obtain ⟨hvalue, rfl⟩ : (value.isArray = true ∨ value.isObject = true) ∧
          .compositeOperand (.compare clause comparison) property = cause := by
        simpa [shapeFlaw?, Json.isComposite] using h
      exact .operand hvalue
    | like property pattern =>
      obtain ⟨hpattern, rfl⟩ : (pattern.isArray = true ∨ pattern.isObject = true) ∧
          .compositePattern property = cause := by
        simpa [shapeFlaw?, Json.isComposite] using h
      exact .pattern hpattern
    | inList property values =>
      obtain ⟨rfl, rfl⟩ : values = [] ∧ .emptyList .inList property = cause := by
        simpa [shapeFlaw?] using h
      exact .inList
    | notInList property values =>
      obtain ⟨rfl, rfl⟩ : values = [] ∧ .emptyList .notInList property = cause := by
        simpa [shapeFlaw?] using h
      exact .notInList
    | isNull property | isNotNull property | group clause connective members => cases h
  · intro h
    cases h with
    | mapping h => simp [shapeFlaw?, h]
    | operand h | pattern h => simp [shapeFlaw?, Json.isComposite, h]
    | inList | notInList => rfl

/-- A node is in its place unless its keyword belongs to the other clause. -/
theorem placed_or_misplaced (clause : Clause) (c : Condition) :
    c.Placed clause ∨ ∃ keyword, c.keyword? = some keyword ∧ keyword.clause ≠ clause := by
  unfold Placed clause?
  cases c.keyword? with
  | none => exact .inl nofun
  | some keyword =>
    by_cases h : keyword.clause = clause
    · refine .inl ?_
      rintro own ⟨⟩
      exact h
    · exact .inr ⟨keyword, rfl, h⟩

theorem not_placed {clause : Clause} {c : Condition} {keyword : Keyword}
    (hkeyword : c.keyword? = some keyword) (hclause : keyword.clause ≠ clause) : ¬ c.Placed clause := by
  intro h
  exact hclause (h _ (by rw [clause?, hkeyword]; rfl))

theorem nodeFlaw?_of_placed {clause : Clause} {c : Condition} (h : c.Placed clause) :
    nodeFlaw? clause c = c.shapeFlaw? := by
  unfold nodeFlaw?
  split
  · rename_i keyword hkeyword
    rw [if_neg]
    exact fun hclause => not_placed hkeyword hclause h
  · rfl

theorem nodeFlaw?_of_misplaced {clause : Clause} {c : Condition} {keyword : Keyword}
    (hkeyword : c.keyword? = some keyword) (hclause : keyword.clause ≠ clause) :
    nodeFlaw? clause c = some (.misplaced keyword clause) := by
  simp only [nodeFlaw?, hkeyword]
  exact if_pos hclause

/-- **Legal nodes** are those in which the compiler finds no flaw. -/
theorem nodeFlaw?_eq_none_iff {clause : Clause} {c : Condition} :
    nodeFlaw? clause c = none ↔ Legal clause c := by
  rcases placed_or_misplaced clause c with hplaced | ⟨keyword, hkeyword, hclause⟩
  · rw [nodeFlaw?_of_placed hplaced, shapeFlaw?_eq_none_iff]
    exact ⟨fun hshaped => ⟨hplaced, hshaped⟩, fun hlegal => hlegal.shaped⟩
  · rw [nodeFlaw?_of_misplaced hkeyword hclause]
    exact ⟨nofun, fun hlegal => absurd hlegal.placed (not_placed hkeyword hclause)⟩

/-- **Refused nodes** are those with a flaw, and the flaw is the reason. -/
theorem nodeFlaw?_eq_some_iff {clause : Clause} {c : Condition} {cause : SpecificationFault} :
    nodeFlaw? clause c = some cause ↔ Refused clause c cause := by
  rcases placed_or_misplaced clause c with hplaced | ⟨keyword, hkeyword, hclause⟩
  · rw [nodeFlaw?_of_placed hplaced, shapeFlaw?_eq_some_iff]
    refine ⟨.malformed hplaced, ?_⟩
    rintro (⟨hkeyword, hclause⟩ | ⟨-, hshape⟩)
    · exact absurd hplaced (not_placed hkeyword hclause)
    · exact hshape
  · rw [nodeFlaw?_of_misplaced hkeyword hclause]
    constructor
    · rintro ⟨⟩
      exact .misplaced hkeyword hclause
    · rintro (⟨hother, -⟩ | ⟨hplaced, -⟩)
      · obtain rfl := Option.some.inj (hkeyword.symm.trans hother)
        rfl
      · exact absurd hplaced (not_placed hkeyword hclause)

instance (clause : Clause) (c : Condition) : Decidable (Legal clause c) :=
  decidable_of_iff _ nodeFlaw?_eq_none_iff

/-! ## Order of inspection -/

/-- The nodes that are judged in a clause: those of the conditions routed to it, in preorder. -/
def inspectedIn (clause : Clause) (conditions : List Condition) : List (Clause × Condition) :=
  (nodesIn (routed clause conditions)).map (clause, ·)

/-- All nodes of conditions beside the clause they are judged in: the restriction comes first. -/
def inspected (conditions : List Condition) : List (Clause × Condition) :=
  inspectedIn .restriction conditions ++ inspectedIn .having conditions

theorem mem_inspectedIn_iff {clause : Clause} {conditions : List Condition} {n : Clause × Condition} :
    n ∈ inspectedIn clause conditions ↔ n.1 = clause ∧ ∃ c ∈ conditions, c.route = clause ∧ n.2 ∈ c.nodes := by
  obtain ⟨own, n⟩ := n
  simp only [inspectedIn, routed, List.mem_map, mem_nodesIn, List.mem_filter, decide_eq_true_eq, Prod.mk.injEq]
  constructor
  · rintro ⟨m, ⟨c, ⟨hc, hroute⟩, hm⟩, rfl, rfl⟩
    exact ⟨rfl, c, hc, hroute, hm⟩
  · rintro ⟨rfl, c, hc, hroute, hn⟩
    exact ⟨n, ⟨c, ⟨hc, hroute⟩, hn⟩, rfl, rfl⟩

/-- A node is judged in the clause that its condition is routed to. -/
theorem mem_inspected_iff {conditions : List Condition} {n : Clause × Condition} :
    n ∈ inspected conditions ↔ ∃ c ∈ conditions, c.route = n.1 ∧ n.2 ∈ c.nodes := by
  rw [inspected, List.mem_append, mem_inspectedIn_iff, mem_inspectedIn_iff]
  obtain ⟨clause, n⟩ := n
  cases clause <;> simp

/-- Every node of conditions is judged in some clause. -/
theorem exists_mem_inspected_iff {conditions : List Condition} {n : Condition} :
    (∃ clause, (clause, n) ∈ inspected conditions) ↔ n ∈ nodesIn conditions := by
  simp only [mem_inspected_iff, mem_nodesIn]
  constructor
  · rintro ⟨clause, c, hc, -, hn⟩
    exact ⟨c, hc, hn⟩
  · rintro ⟨c, hc, hn⟩
    exact ⟨c.route, c, hc, rfl, hn⟩

/-- Every node is legal in its clause. -/
def AllLegal (nodes : List (Clause × Condition)) : Prop := ∀ n ∈ nodes, Legal n.1 n.2

theorem allLegal_append {ns ms : List (Clause × Condition)} :
    AllLegal (ns ++ ms) ↔ AllLegal ns ∧ AllLegal ms := List.forall_mem_append

theorem inspectedIn_append (clause : Clause) (as bs : List Condition) :
    inspectedIn clause (as ++ bs) = inspectedIn clause as ++ inspectedIn clause bs := by
  rw [inspectedIn, routed_append, nodesIn_append, List.map_append]
  rfl

/-- Conditions are legal together when they are legal on their own. -/
theorem allLegal_inspected_append {as bs : List Condition} :
    AllLegal (inspected (as ++ bs)) ↔ AllLegal (inspected as) ∧ AllLegal (inspected bs) := by
  simp only [inspected, inspectedIn_append, allLegal_append]
  exact and_and_and_comm

/-- The first node that is not legal is refused, and why. -/
def FirstRefused (nodes : List (Clause × Condition)) (cause : SpecificationFault) : Prop :=
  ∃ before clause c after, nodes = before ++ (clause, c) :: after ∧ AllLegal before ∧ Refused clause c cause

/-- The first flaw among nodes. -/
def firstFlaw? (nodes : List (Clause × Condition)) : Option SpecificationFault :=
  nodes.findSome? fun n => nodeFlaw? n.1 n.2

theorem firstFlaw?_eq_none_iff {nodes : List (Clause × Condition)} :
    firstFlaw? nodes = none ↔ AllLegal nodes := by
  simp only [firstFlaw?, List.findSome?_eq_none_iff, nodeFlaw?_eq_none_iff, AllLegal]

theorem firstFlaw?_eq_some_iff {nodes : List (Clause × Condition)} {cause : SpecificationFault} :
    firstFlaw? nodes = some cause ↔ FirstRefused nodes cause := by
  rw [firstFlaw?, List.findSome?_eq_some_iff]
  constructor
  · rintro ⟨before, ⟨clause, c⟩, after, hnodes, hflaw, hbefore⟩
    refine ⟨before, clause, c, after, hnodes, ?_, nodeFlaw?_eq_some_iff.mp hflaw⟩
    intro n hn
    exact nodeFlaw?_eq_none_iff.mp (hbefore n hn)
  · rintro ⟨before, clause, c, after, hnodes, hbefore, hrefused⟩
    refine ⟨before, (clause, c), after, hnodes, nodeFlaw?_eq_some_iff.mpr hrefused, ?_⟩
    intro n hn
    exact nodeFlaw?_eq_none_iff.mpr (hbefore n hn)

theorem allLegal_or_firstRefused (nodes : List (Clause × Condition)) :
    AllLegal nodes ∨ ∃ cause, FirstRefused nodes cause := by
  cases hflaw : firstFlaw? nodes with
  | none => exact .inl (firstFlaw?_eq_none_iff.mp hflaw)
  | some cause => exact .inr ⟨cause, firstFlaw?_eq_some_iff.mp hflaw⟩

theorem AllLegal.not_firstRefused {nodes : List (Clause × Condition)} {cause : SpecificationFault}
    (h : AllLegal nodes) : ¬ FirstRefused nodes cause := by
  intro hfirst
  have hflaw := firstFlaw?_eq_some_iff.mpr hfirst
  rw [firstFlaw?_eq_none_iff.mpr h] at hflaw
  cases hflaw

/-- Only one node is the first that is refused, and it is refused for one reason. -/
theorem FirstRefused.unique {nodes : List (Clause × Condition)} {cause other : SpecificationFault}
    (h : FirstRefused nodes cause) (hother : FirstRefused nodes other) : cause = other := by
  rw [← firstFlaw?_eq_some_iff] at h hother
  exact Option.some.inj (h.symm.trans hother)

/-- **Checks go in preorder.** The flaw that the recursion over a condition, or over a list of them, finds is
    that of the first flawed node. -/
theorem flaw?_eq (clause : Clause) :
    (∀ c, flaw? clause c = c.nodes.findSome? (nodeFlaw? clause)) ∧
      ∀ cs, flawIn? clause cs = (nodesIn cs).findSome? (nodeFlaw? clause) := by
  refine tree_induction ?atom ?group ?nil ?cons
  case atom =>
    intro c a hatom
    have hflaw : flaw? clause c = nodeFlaw? clause c := by
      cases c with
      | group own connective members => exact absurd hatom nofun
      | _ => rfl
    rw [hflaw, nodes_of_atom hatom, List.findSome?_singleton]
  case group =>
    intro own connective members ih
    -- the group itself is the first of its nodes, and its members follow only if it has no flaw
    rw [flaw?, ih, nodes, List.findSome?_cons]
    cases nodeFlaw? clause (group own connective members) <;> rfl
  case nil =>
    rfl
  case cons =>
    intro c cs ih ihs
    rw [flawIn?, ih, ihs, nodesIn, List.findSome?_append]

theorem firstFlaw?_map (clause : Clause) (cs : List Condition) :
    firstFlaw? (cs.map (clause, ·)) = cs.findSome? (nodeFlaw? clause) :=
  List.findSome?_map ..

theorem firstFlaw?_nodes (clause : Clause) (c : Condition) :
    firstFlaw? (c.nodes.map (clause, ·)) = flaw? clause c := by
  rw [firstFlaw?_map, (flaw?_eq clause).1]

theorem firstFlaw?_inspectedIn (clause : Clause) (conditions : List Condition) :
    firstFlaw? (inspectedIn clause conditions) = flawIn? clause (routed clause conditions) := by
  rw [inspectedIn, firstFlaw?_map, (flaw?_eq clause).2]

theorem firstFlaw?_inspected (conditions : List Condition) :
    firstFlaw? (inspected conditions) =
      (flawIn? .restriction (routed .restriction conditions)).or
        (flawIn? .having (routed .having conditions)) := by
  rw [← firstFlaw?_inspectedIn, ← firstFlaw?_inspectedIn]
  exact List.findSome?_append

end Condition

/-! ## Vetting -/

open Condition

/-- A computation succeeds exactly when all nodes are legal. Otherwise it fails for the first that is not, and
    no name is drawn. -/
structure Naming.Vets {α : Type} (x : Naming α) (nodes : List (Clause × Condition)) : Prop where
  accepts : ∀ supply, (∃ a supply', x.runOn supply = (.ok a, supply')) ↔ AllLegal nodes
  refuses : ∀ supply fault supply', x.runOn supply = (.error fault, supply') ↔
    supply' = supply ∧ ∃ cause, fault = .specification cause ∧ FirstRefused nodes cause

/-- A session fails for the first node that is not legal, if there is one, and leaves the world as it was: no
    name is drawn, and the engine is not called. -/
def Session.Refuses {ρ σ α : Type} (x : Session ρ σ α) (nodes : List (Clause × Condition)) : Prop :=
  ¬ AllLegal nodes → ∃ cause, FirstRefused nodes cause ∧ ∀ w, x.runIn w = (.error (.specification cause), w)

namespace Naming

variable {α β : Type} {x : Naming α} {nodes : List (Clause × Condition)}

/-- A computation vets nodes when their first flaw decides how it ends. -/
theorem vets_of_runOn {result : NameSupply → α} {rest : NameSupply → NameSupply}
    (h : ∀ supply, x.runOn supply = match firstFlaw? nodes with
      | some cause => (.error (.specification cause), supply)
      | none => (.ok (result supply), rest supply)) : x.Vets nodes := by
  -- either all nodes are legal and there is a result, or the first one that is refused decides
  rcases allLegal_or_firstRefused nodes with hlegal | ⟨cause, hfirst⟩
  · simp only [firstFlaw?_eq_none_iff.mpr hlegal] at h
    constructor
    · intro supply
      exact ⟨fun _ => hlegal, fun _ => ⟨_, _, h supply⟩⟩
    · intro supply fault supply'
      rw [h]
      refine ⟨nofun, ?_⟩
      rintro ⟨-, cause, -, hfirst⟩
      exact absurd hfirst hlegal.not_firstRefused
  · simp only [firstFlaw?_eq_some_iff.mpr hfirst] at h
    constructor
    · intro supply
      rw [h]
      exact ⟨nofun, fun hlegal => absurd hfirst hlegal.not_firstRefused⟩
    · intro supply fault supply'
      rw [h]
      constructor
      · rintro ⟨⟩
        exact ⟨rfl, cause, rfl, hfirst⟩
      · rintro ⟨rfl, other, rfl, hother⟩
        rw [hfirst.unique hother]

/-- Working on the result changes neither the acceptance nor the failure. -/
theorem Vets.map (h : x.Vets nodes) (f : α → β) : (x >>= fun a => pure (f a)).Vets nodes := by
  constructor
  · intro supply
    rw [← h.accepts supply, runOn_bind]
    rcases x.runOn supply with ⟨fault | a, supply'⟩ <;> simp
  · intro supply fault supply'
    rw [← h.refuses supply, runOn_bind]
    rcases x.runOn supply with ⟨fault | a, supply'⟩ <;> simp

/-- Two computations in a row succeed exactly when the nodes of both are legal. -/
theorem Vets.accepts_bind {next : α → Naming β} {nodes' : List (Clause × Condition)} (h : x.Vets nodes)
    (hnext : ∀ a, (next a).Vets nodes') (supply : NameSupply) :
    (∃ b after, (x >>= next).runOn supply = (.ok b, after)) ↔ AllLegal nodes ∧ AllLegal nodes' := by
  rw [← h.accepts supply, runOn_bind]
  rcases x.runOn supply with ⟨fault | a, supply'⟩
  · simp
  · simpa using (hnext a).accepts supply'

end Naming

namespace Session

variable {ρ σ α β : Type} {nodes : List (Clause × Condition)}

/-- A session that draws names by a vetting computation refuses what the computation refuses. -/
theorem refuses_naming {x : Naming α} (h : x.Vets nodes) : (naming x : Session ρ σ α).Refuses nodes := by
  intro hillegal
  obtain ⟨cause, hfirst⟩ := (allLegal_or_firstRefused nodes).resolve_left hillegal
  refine ⟨cause, hfirst, fun w => ?_⟩
  have hrun := (h.refuses w.supply (.specification cause) w.supply).mpr ⟨rfl, cause, rfl, hfirst⟩
  show ((x.runOn w.supply).1, { w with supply := (x.runOn w.supply).2 }) = _
  rw [hrun]

/-- What would come after a refusal does not happen. -/
theorem Refuses.bind {x : Session ρ σ α} (h : x.Refuses nodes) (next : α → Session ρ σ β) :
    (x >>= next).Refuses nodes := by
  intro hillegal
  obtain ⟨cause, hfirst, hrun⟩ := h hillegal
  refine ⟨cause, hfirst, fun w => ?_⟩
  rw [runIn_bind, hrun]

end Session

/-! ## Result -/

namespace Scope

theorem vets_applyConditions (s : Scope) (q : Query) (conditions : List Condition) :
    (s.applyConditions q conditions).Vets (inspected conditions) := by
  have hrun := s.runOn_applyConditions q conditions
  simp only [← firstFlaw?_inspected] at hrun
  exact Naming.vets_of_runOn hrun

theorem vets_find (s : Scope) (r : FindRequest) : (s.find r).Vets (inspected r.conditions) :=
  (s.vets_applyConditions _ r.conditions).map _

theorem vets_count (s : Scope) (conditions : List Condition) :
    (s.count conditions).Vets (inspected conditions) :=
  s.vets_applyConditions _ conditions

theorem vets_compileClause (s : Scope) (conditions : List Condition) (clause : Clause) :
    (s.compileClause conditions clause).Vets (inspectedIn clause conditions) := by
  have hrun := s.runOn_compileClause conditions clause
  simp only [← firstFlaw?_inspectedIn] at hrun
  exact Naming.vets_of_runOn hrun

theorem vets_compileCondition (s : Scope) (c : Condition) (clause : Clause) :
    (s.compileCondition c clause).Vets (c.nodes.map (clause, ·)) := by
  have hrun := s.runOn_compileCondition c clause
  simp only [← firstFlaw?_nodes] at hrun
  exact Naming.vets_of_runOn hrun

end Scope

/-- **Conditions are vetted before anything happens.** Applying conditions to a query, and assembling a query
    for a request or for a count, succeeds exactly when every node at every depth is legal in the clause that
    its condition is routed to; otherwise it fails for the first node that is not, and no name is drawn.
    Compiling one clause or one condition follows the same law for its own nodes. Finding, finding by
    identifier, finding one and counting refuse the same conditions without a call to the engine. -/
theorem conditions_vetted {ρ σ : Type} [Record ρ] (s : Scope) (f : Facade ρ σ) :
    (∀ q conditions, (s.applyConditions q conditions).Vets (inspected conditions)) ∧
      (∀ request, (s.find request).Vets (inspected request.conditions)) ∧
      (∀ conditions, (s.count conditions).Vets (inspected conditions)) ∧
      (∀ conditions clause, (s.compileClause conditions clause).Vets (inspectedIn clause conditions)) ∧
      (∀ c clause, (s.compileCondition c clause).Vets (c.nodes.map (clause, ·))) ∧
      (∀ search, (f.findBy search).Refuses (inspected search.conditions)) ∧
      (∀ search, (f.findByKeyed search).Refuses (inspected search.conditions)) ∧
      (∀ conditions order extras, (f.findOneBy conditions order extras).Refuses (inspected conditions)) ∧
      ∀ conditions, (f.count conditions).Refuses (inspected conditions) := by
  -- a facade assembles its query first, so whatever it does afterwards does not happen on a refusal
  have hfind : ∀ r, (Session.naming (f.scope.find r) : Session ρ σ Query).Refuses (inspected r.conditions) :=
    fun r => Session.refuses_naming (f.scope.vets_find r)
  have hrecords : ∀ search, (f.records search).Refuses (inspected search.conditions) :=
    fun search => (hfind (f.request search)).bind _
  refine ⟨s.vets_applyConditions, s.vets_find, s.vets_count, s.vets_compileClause,
    s.vets_compileCondition, ?_, ?_, ?_, ?_⟩
  · intro search
    exact (hrecords search).bind _
  · intro search
    exact (hrecords search).bind _
  · intro conditions order extras
    exact (hfind (f.request ⟨conditions, order, some 1, none, extras⟩)).bind _
  · intro conditions
    exact (Session.refuses_naming (f.scope.vets_count conditions)).bind _

-- the restriction is judged before the other clause, and a node in the wrong place is refused for that alone
example (s : Scope) (q : Query) (supply : NameSupply) :
    (s.applyConditions q [.group .having .and [.isNull "name"], .bare "name" (.string "a"),
      .group .restriction .or [.compare .having .less "price" (.array [])]]).runOn supply =
        (.error (.specification (.misplaced (.compare .having .less) .restriction)), supply) := by
  rfl

end Criteria
