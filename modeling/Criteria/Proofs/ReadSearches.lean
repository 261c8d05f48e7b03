import Criteria.Proofs.Acceptance
import Criteria.Proofs.WireForm

/-!
# `Criteria.Proofs.ReadSearches` — what is left to check after reading

A search may be read from a value or put together from conditions, and so its nodes are checked twice. The reader
rejects some operands, and the compiler judges every node again, whatever its history. This module lines the two up,
node by node: of the shape of an operand, the reader leaves only empty lists to the compiler.

## Contents
- **Faults.** `SpecificationFault.OfShape` singles out what is said of mappings and composite values.
- **Nodes.** `IsEmptyList` and `LeftToCheck`: what may still be wrong with a node that was read. For readable nodes,
  this is all that is refused (`Readable.refused_iff`).
- **Computations.** `Naming.ChecksWhatIsLeft`: a computation that takes conditions fails for nothing else.
- **Result.** `shapes_checked_by_reading`.
-/

namespace Criteria

/-! ## Faults -/

/-- What is said of an operand that is a mapping or a composite value where it must not be. -/
inductive SpecificationFault.OfShape : SpecificationFault → Prop where
  | mapping (property : String) : OfShape (.mappingValue property)
  | operand (keyword : Keyword) (property : String) : OfShape (.compositeOperand keyword property)
  | pattern (property : String) : OfShape (.compositePattern property)

namespace Condition

/-! ## Nodes -/

/-- A membership test without values. -/
def IsEmptyList : Condition → Prop
  | .inList _ values | .notInList _ values => values = []
  | .bare _ _ | .group _ _ _ | .like _ _ | .isNull _ | .isNotNull _ | .compare _ _ _ _ => False

/-- What may be wrong with a node that was read: it belongs to the other clause, or it is in its place and tests for
    membership in an empty list. -/
inductive LeftToCheck (clause : Clause) (c : Condition) : SpecificationFault → Prop where
  | misplaced {keyword : Keyword} (hkeyword : c.keyword? = some keyword) (hclause : keyword.clause ≠ clause) :
      LeftToCheck clause c (.misplaced keyword clause)
  | inList {property : String} (hplaced : c.Placed clause) (hempty : c = .inList property []) :
      LeftToCheck clause c (.emptyList .inList property)
  | notInList {property : String} (hplaced : c.Placed clause) (hempty : c = .notInList property []) :
      LeftToCheck clause c (.emptyList .notInList property)

theorem LeftToCheck.not_ofShape {clause : Clause} {c : Condition} {cause : SpecificationFault}
    (h : LeftToCheck clause c cause) : ¬ cause.OfShape := by
  cases h <;> exact nofun

theorem LeftToCheck.refused {clause : Clause} {c : Condition} {cause : SpecificationFault}
    (h : LeftToCheck clause c cause) : Refused clause c cause := by
  cases h with
  | misplaced hkeyword hclause => exact .misplaced hkeyword hclause
  | inList hplaced hempty => exact .malformed hplaced (hempty ▸ .inList)
  | notInList hplaced hempty => exact .malformed hplaced (hempty ▸ .notInList)

/-- The operand of a node that was read is well shaped, unless it is an empty list. -/
theorem Readable.wellShaped_iff {c : Condition} (h : c.Readable) : c.WellShaped ↔ ¬ c.IsEmptyList := by
  cases c with
  | bare property value =>
    obtain ⟨-, -, hvalue⟩ := h
    exact iff_of_true hvalue not_false
  | compare clause comparison property value =>
    obtain ⟨-, hvalue⟩ := h
    exact iff_of_true (Bool.or_eq_false_iff.mp hvalue) not_false
  | like property pattern =>
    obtain ⟨-, hpattern⟩ := h
    exact iff_of_true (Bool.or_eq_false_iff.mp hpattern) not_false
  | inList property values | notInList property values => exact Iff.rfl
  | isNull property | isNotNull property | group clause connective members => exact iff_of_true trivial not_false

theorem Readable.legal_iff {clause : Clause} {c : Condition} (h : c.Readable) :
    Legal clause c ↔ c.Placed clause ∧ ¬ c.IsEmptyList := by
  rw [← h.wellShaped_iff]
  exact ⟨fun hlegal => ⟨hlegal.placed, hlegal.shaped⟩, fun ⟨hplaced, hshaped⟩ => ⟨hplaced, hshaped⟩⟩

theorem Malformed.not_wellShaped {c : Condition} {cause : SpecificationFault} (h : Malformed c cause) :
    ¬ c.WellShaped := by
  rw [← shapeFlaw?_eq_none_iff, shapeFlaw?_eq_some_iff.mpr h]
  exact Option.some_ne_none cause

/-- **What is refused among readable nodes** is what reading has left to check. -/
theorem Readable.refused_iff {clause : Clause} {c : Condition} (h : c.Readable) {cause : SpecificationFault} :
    Refused clause c cause ↔ LeftToCheck clause c cause := by
  refine ⟨?_, LeftToCheck.refused⟩
  rintro (⟨hkeyword, hclause⟩ | ⟨hplaced, hshape⟩)
  · exact .misplaced hkeyword hclause
  · have hempty : c.IsEmptyList := not_not.mp (mt h.wellShaped_iff.mpr hshape.not_wellShaped)
    cases hshape with
    | inList => exact .inList hplaced rfl
    | notInList => exact .notInList hplaced rfl
    | mapping | operand | pattern => exact hempty.elim

/-- A condition with readable nodes has a flaw exactly when one of its nodes is out of place or tests an empty list. -/
theorem Expressible.flaw?_iff {c : Condition} (h : c.Expressible) (clause : Clause) :
    (∃ cause, c.flaw? clause = some cause) ↔ ∃ n ∈ c.nodes, ¬ n.Placed clause ∨ n.IsEmptyList := by
  have hflaw : (∃ cause, c.flaw? clause = some cause) ↔ ¬ c.flaw? clause = none := by
    rw [← ne_eq, Option.ne_none_iff_exists']
  rw [hflaw, (flaw?_eq clause).1, List.findSome?_eq_none_iff]
  push Not
  refine exists_congr fun n => and_congr_right fun hn => ?_
  rw [ne_eq, nodeFlaw?_eq_none_iff, (h n hn).legal_iff, not_and_or, not_not]

/-- The flaw of a condition with readable nodes is one that reading has left to check. -/
theorem Expressible.leftToCheck {c : Condition} (h : c.Expressible) {clause : Clause} {cause : SpecificationFault}
    (hflaw : c.flaw? clause = some cause) : ∃ n ∈ c.nodes, LeftToCheck clause n cause := by
  rw [(flaw?_eq clause).1] at hflaw
  obtain ⟨n, hn, hrefused⟩ := List.exists_of_findSome?_eq_some hflaw
  exact ⟨n, hn, (h n hn).refused_iff.mp (nodeFlaw?_eq_some_iff.mp hrefused)⟩

end Condition

/-! ## Computations -/

open Condition

/-- A computation that takes a search fails only for what is left to check of one of its nodes. -/
def Naming.ChecksWhatIsLeft {α : Type} (x : Naming α) (cs : List Condition) : Prop :=
  ∀ supply fault supply', x.runOn supply = (.error fault, supply') →
    ∃ cause, fault = .specification cause ∧ ¬ cause.OfShape ∧ ∃ n ∈ inspected cs, LeftToCheck n.1 n.2 cause

/-- A computation that vets a search of readable nodes only has to check what is left. -/
theorem Naming.Vets.checksWhatIsLeft {α : Type} {x : Naming α} {cs : List Condition} (hvets : x.Vets (inspected cs))
    (hcs : ∀ c ∈ cs, c.Expressible) : x.ChecksWhatIsLeft cs := by
  intro supply fault supply' hrun
  obtain ⟨-, cause, rfl, before, clause, n, after, hnodes, -, hrefused⟩ := (hvets.refuses ..).mp hrun
  have hn : (clause, n) ∈ inspected cs := by
    rw [hnodes]
    exact List.mem_append_right _ List.mem_cons_self
  obtain ⟨c, hc, -, hnc⟩ := mem_inspected_iff.mp hn
  have hleft : LeftToCheck clause n cause := (hcs c hc n hnc).refused_iff.mp hrefused
  exact ⟨cause, rfl, hleft.not_ofShape, (clause, n), hn, hleft⟩

/-! ## Result -/

/-- **The reader checks the shapes.** Of a search that was read from a value, every condition is flawed in a clause
    exactly when some node, at whatever depth, belongs to the other clause or tests for membership in an empty list.
    The flaw is that of such a node, and never that an operand is a mapping or a composite value. So it is for the
    whole search: applying it to a query, finding by it and counting by it fail for nothing else. -/
theorem shapes_checked_by_reading {v : Json} {cs : List Condition} (h : ofJson v = .ok cs) :
    (∀ c ∈ cs, ∀ clause,
        ((∃ cause, c.flaw? clause = some cause) ↔ ∃ n ∈ c.nodes, ¬ n.Placed clause ∨ n.IsEmptyList) ∧
        ∀ cause, c.flaw? clause = some cause → ¬ cause.OfShape ∧ ∃ n ∈ c.nodes, LeftToCheck clause n cause) ∧
      ∀ s : Scope, (∀ q, (s.applyConditions q cs).ChecksWhatIsLeft cs) ∧
        (∀ request, request.conditions = cs → (s.find request).ChecksWhatIsLeft cs) ∧
        (s.count cs).ChecksWhatIsLeft cs := by
  have hcs : ∀ c ∈ cs, c.Expressible := yields_ofJson v cs h
  refine ⟨?conditions, fun s => ⟨fun q => ?_, ?_, ?_⟩⟩
  case conditions =>
    intro c hc clause
    refine ⟨(hcs c hc).flaw?_iff clause, fun cause hflaw => ?_⟩
    obtain ⟨n, hn, hleft⟩ := (hcs c hc).leftToCheck hflaw
    exact ⟨hleft.not_ofShape, n, hn, hleft⟩
  · exact (s.vets_applyConditions q cs).checksWhatIsLeft hcs
  · rintro request rfl
    exact (s.vets_find request).checksWhatIsLeft hcs
  · exact (s.vets_count cs).checksWhatIsLeft hcs

/-- Both kinds of flaw are left: the reader lets an empty list and a comparison for the other clause pass, and the
    compiler finds the first of them. -/
theorem shapes_checked_by_reading_grouped :
    let v : Json := .object [("__OR_WHERE__", .object [("__IN__", .object [("status", .array [])]),
      ("0", .object [("__HAVING_LESS__", .object [("total", .int 1)])])])]
    let c := group .restriction .or [.inList "status" [], .compare .having .less "total" (.int 1)]
    ofJson v = .ok [c] ∧ c.flaw? .restriction = some (.emptyList .inList "status") ∧
      (∃ n ∈ c.nodes, LeftToCheck .restriction n (.emptyList .inList "status")) ∧
      (∃ n ∈ c.nodes, ¬ n.Placed .having ∨ n.IsEmptyList) ∧
      ∀ (s : Scope) q, (s.applyConditions q [c]).ChecksWhatIsLeft [c] := by
  intro v c
  have hread : ofJson v = .ok [c] := by rfl
  obtain ⟨hconditions, hsearch⟩ := shapes_checked_by_reading hread
  have hc := hconditions c (List.mem_singleton_self c)
  have hflaw : c.flaw? .restriction = some (.emptyList .inList "status") := by rfl
  refine ⟨hread, hflaw, ((hc .restriction).2 _ hflaw).2, ?_, fun s => (hsearch s).1⟩
  exact (hc .having).1.mp ⟨.misplaced (.group .restriction .or) .having, by rfl⟩

end Criteria
