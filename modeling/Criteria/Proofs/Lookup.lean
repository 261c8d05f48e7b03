import Criteria.Engine.Memory
import Criteria.Facade
import Criteria.Proofs.Requests
import Criteria.Proofs.Schema

/-!
# `Criteria.Proofs.Lookup` — looking up an entity by a query

With extras, an entity is looked up by a query for its identifier. The only identifier field of the schema is resolved
as any other name is: declared, it is a property of the root entity, and undeclared, it is a text of its own. A valid
schema need not declare it.

## Contents
- **Identifiers.** `Identifier.test` and `Identifier.argument`: how a query tests for an identifier.
- **Queries.** `Query.FiltersBy`: a query asks for an identifier and for nothing else.
- **Runs.** `calls_findOneById`: what a look-up with extras asks of the engine.
- **Result.** `validated_lookup`.
-/

namespace Criteria

open Condition

/-! ## Identifiers -/

namespace Identifier

/-- The test for an identifier. -/
def test : Identifier → Test
  | .null => .isNull
  | .integer _ | .uuid _ | .text _ => .compare .equal

/-- What the test for an identifier compares with. -/
def argument : Identifier → Argument
  | .null => .absent
  | id => .parameter (some id.toJson)

theorem atom?_bare (field : String) (id : Identifier) :
    (bare field id.toJson).atom? = some ⟨field, id.test, id.argument⟩ := by
  cases id <;> rfl

/-- No identifier is a mapping, so every identifier may stand beside a field. -/
theorem allLegal_bare (field : String) (id : Identifier) : AllLegal (inspected [bare field id.toJson]) :=
  firstFlaw?_eq_none_iff.mp (by cases id <;> rfl)

end Identifier

/-! ## Queries -/

/-- All that a query asks of an entity is that a property is an identifier. -/
def Query.FiltersBy (q : Query) (property : Property) (id : Identifier) : Prop :=
  ∃ p : Predicate, q.restrictions = [.leaf p] ∧ q.havings = [] ∧
    p.property = property ∧ p.test = id.test ∧ q.bindings.argument p.operand = id.argument

/-- The request for the entity with an identifier. -/
def FindRequest.byIdentifier (field : String) (id : Identifier) (extras : Extras) : FindRequest :=
  ⟨[.bare field id.toJson], [], none, none, extras⟩

namespace Scope

theorem boundBy_byIdentifier (field : String) (id : Identifier) :
    boundBy [bare field id.toJson] = id.argument.value?.toList := by
  rw [← values_of_atom (Identifier.atom?_bare field id)]
  show valuesIn [bare field id.toJson] ++ [] = _
  rw [List.append_nil, valuesIn_cons, show valuesIn [] = [] from rfl, List.append_nil]

theorem drawnBy_byIdentifier (field : String) (id : Identifier) :
    drawnBy [bare field id.toJson] ≤ UInt64.size := by
  have hone : drawnBy [bare field id.toJson] ≤ 1 := by
    rw [← length_boundBy, boundBy_byIdentifier]
    cases id.argument.value? <;> simp
  exact Nat.le_trans hone (by decide)

theorem filtersBy_found (s : Scope) (field : String) (id : Identifier) (extras : Extras) (supply : NameSupply) :
    (s.found (.byIdentifier field id extras) supply).FiltersBy (s.resolve field) id := by
  have hatom := Identifier.atom?_bare field id
  -- the table of the whole query is that of its one condition
  have hbinds : Bindings.Binds (s.found (.byIdentifier field id extras) supply).bindings
      (supply.label (bare field id.toJson).values) := by
    rw [values_of_atom hatom, ← boundBy_byIdentifier field id]
    exact Bindings.binds_label supply _ (length_boundBy _ ▸ drawnBy_byIdentifier field id)
  have hrenders := s.renders_of_atom hatom hbinds
  refine ⟨_, ?_, rfl, hrenders.property, hrenders.test, hrenders.argument⟩
  show (s.compileList [bare field id.toJson] (Binder.start supply)).1 = _
  exact congrArg (fun x => [x.1]) (s.compile_of_atom hatom (Binder.start supply))

end Scope

/-! ## Runs -/

namespace Facade

open Session

variable {ρ σ : Type} [Record ρ]

theorem world_checkOne (f : Facade ρ σ) (r : Option ρ) (w : World ρ σ) : ((f.checkOne r).runIn w).2 = w := by
  cases r <;> rfl

/-- With extras, a look-up by the only identifier field is one query. -/
theorem calls_findOneById (f : Facade ρ σ) {field : String} (hsingle : f.scope.schema.identifiers = [field])
    {extras : Extras} (hextras : extras.isEmpty = false) (id : Identifier) (w : World ρ σ) :
    ((f.findOneById id extras).runIn w).2.calls =
      w.calls ++ [.atMostOne (f.scope.found (.byIdentifier field id extras) w.supply)] := by
  have hfield : f.scope.schema.singleIdentifier = .ok field := by rw [Schema.singleIdentifier, hsingle]
  have hfind := f.scope.find_of_legal (.byIdentifier field id extras) w.supply (Identifier.allLegal_bare field id)
    (Scope.drawnBy_byIdentifier field id)
  rw [findOneById, hextras]
  simp only [Bool.false_eq_true, if_false]
  rw [hfield, runIn_bind, runIn_checked]
  show ((naming (f.scope.find (.byIdentifier field id extras)) >>= _).runIn w).2.calls = _
  rw [runIn_bind, runIn_naming, hfind]
  show ((ask f.engine (.atMostOne _) >>= _).runIn _).2.calls = _
  rw [runIn_bind, runIn_ask]
  -- the call is made, and checking the type of its answer makes no other
  split
  · case h_1 r w' hasked =>
    rw [world_checkOne]
    exact congrArg World.calls (congrArg Prod.snd hasked).symm
  · case h_2 fault w' hasked => exact congrArg World.calls (congrArg Prod.snd hasked).symm

/-! ## Result -/

/-- **What validation is worth to a look-up.** A valid schema has an identifier, and none of its fields is an
    association. Its identifiers are fields if it was made by declarations, but otherwise need not be. If it has one
    identifier only, a look-up with extras is one query that filters by this identifier and by nothing else: behind
    the root alias, if the identifier is declared and has no dot, and by its bare text if not. -/
theorem validated_lookup (f : Facade ρ σ) (hvalid : f.scope.schema.validate = .ok ()) :
    let schema := f.scope.schema
    (schema.identifiers ≠ [] ∧ ∀ name ∈ schema.fields, name ∉ schema.associations) ∧
      (∀ name table ds, schema = (Schema.blank name table).declareAll ds → schema.identifiers ⊆ schema.fields) ∧
      ∀ field, schema.identifiers = [field] →
        ∀ (id : Identifier) (extras : Extras) (w : World ρ σ), extras.isEmpty = false →
        ∃ q, ((f.findOneById id extras).runIn w).2.calls = w.calls ++ [.atMostOne q] ∧
          q.FiltersBy
            (if '.' ∉ field.toList ∧ (field ∈ schema.fields ∨ field ∈ schema.associations) then
              .qualified f.scope.rootAlias field
            else .verbatim field) id := by
  intro schema
  obtain ⟨-, hidentified, hclash⟩ := Schema.validate_eq_ok_iff.mp hvalid
  refine ⟨⟨hidentified, hclash⟩, ?declared, ?lookup⟩
  case declared =>
    intro name table ds hdeclared
    rw [hdeclared]
    exact Schema.identifiers_subset_fields (s := .blank name table) (List.nil_subset _) ds
  case lookup =>
    intro field hsingle id extras w hextras
    refine ⟨_, f.calls_findOneById hsingle hextras id w, ?_⟩
    -- the text of the filter is what the name resolves to, declared or not
    rw [← f.scope.resolve_eq]
    exact f.scope.filtersBy_found field id extras w.supply

/-- A schema made by declarations, and a look-up that joins an association. -/
theorem validated_lookup_declared :
    let schema := (Schema.blank "Product" "product").declareAll
      [.association "tags", .identifier "id", .fields ["name", "id"]]
    let f : Facade Row Memory := ⟨Memory.engine, ⟨0, "Product"⟩, ⟨"entity", schema⟩, []⟩
    let w : World Row Memory := ⟨.ofStem "param", .ofRows [], [.flush]⟩
    let extras : Extras := ⟨none, [("tags", "tags")], [], []⟩
    schema.validate = .ok () ∧ schema.identifiers ⊆ schema.fields ∧
      ∃ q, ((f.findOneById (.text "7") extras).runIn w).2.calls = [.flush, .atMostOne q] ∧
        q.FiltersBy (.qualified "entity" "id") (.text "7") := by
  intro schema f w extras
  have hvalid : schema.validate = .ok () := by decide
  obtain ⟨-, hdeclared, hlookup⟩ := f.validated_lookup hvalid
  exact ⟨hvalid, hdeclared _ _ _ rfl, hlookup "id" rfl (.text "7") extras w rfl⟩

/-- A stored schema is valid although its identifier is not declared. Then a look-up filters by a text that is no
    property of any entity in the query. -/
theorem validated_lookup_undeclared :
    let schema : Schema := ⟨"P", "p", ["a"], [], ["ghost"]⟩
    let f : Facade Row Memory := ⟨Memory.engine, ⟨0, "P"⟩, ⟨"entity", schema⟩, []⟩
    let w : World Row Memory := ⟨.ofStem "param", .ofRows [], []⟩
    Schema.ofStored? schema.toStored = some schema ∧ schema.validate = .ok () ∧
      ¬ schema.identifiers ⊆ schema.fields ∧
      ∃ q, ((f.findOneById (.integer 7) ⟨none, [], [], ["a"]⟩).runIn w).2.calls = [.atMostOne q] ∧
        q.FiltersBy (.verbatim "ghost") (.integer 7) ∧
        q.text = "SELECT entity FROM P entity WHERE ghost = :param_1 GROUP BY entity.a" := by
  intro schema f w
  refine ⟨schema.ofStored?_toStored, by decide, by decide, _, f.calls_findOneById rfl rfl (.integer 7) w,
    f.scope.filtersBy_found "ghost" _ _ _, ?_⟩
  decide +kernel

end Facade

end Criteria
