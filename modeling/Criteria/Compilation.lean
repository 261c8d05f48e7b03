import Criteria.Condition
import Criteria.Formula.Normal
import Criteria.Naming
import Criteria.Property

/-!
# `Criteria.Compilation` — conditions to formulas

Every condition becomes a formula of the same shape. Scalars and bare arrays are bound to
parameters, the lists of membership operators are written into the query, and null checks need no
operand.

## Contents
- **One condition.** `Scope.compile` and `Scope.compileList`, by recursion on the condition.
- **Checks.** `Scope.compileClause` checks all conditions of a clause before it binds the first
  parameter, so that a malformed search draws no name.
- **Results.** `CompiledClause` holds one formula for each condition, and their parameters.
-/

namespace Criteria

/-- The conditions of one clause, compiled. -/
structure CompiledClause where
  clause : Clause
  formulas : List Formula
  bindings : Bindings

/-- All formulas of a clause as one; absent when they restrict nothing. -/
def CompiledClause.combined (c : CompiledClause) : Option Formula := Formula.conjunction c.formulas

namespace Scope

/-- The predicate on a resolved property. -/
def predicate (s : Scope) (property : String) (test : Test) (operand : Operand) : Formula :=
  .leaf ⟨s.resolve property, test, operand⟩

/-- The predicate whose operand is a fresh parameter bound to a value. -/
def bound (s : Scope) (property : String) (test : Test) (value : Json) (b : Binder) :
    Formula × Binder :=
  let (name, b) := b.bind value
  (s.predicate property test (.parameter name), b)

/-- Compiles a property beside its value. -/
def compileBare (s : Scope) (property : String) (value : Json) (b : Binder) : Formula × Binder :=
  match value with
  | .null => (s.predicate property .isNull .absent, b)
  | .array items => s.bound property .inList (.array items) b
  | value => s.bound property (.compare .equal) value b

mutual

/-- Compiles one condition. -/
def compile (s : Scope) : Condition → Binder → Formula × Binder
  | .bare property value, b => s.compileBare property value b
  | .group _ connective members, b =>
    let (fs, b) := compileList s members b
    (.group connective fs, b)
  | .like property pattern, b => s.bound property .like pattern b
  | .inList property values, b => (s.predicate property .inList (.literals values), b)
  | .notInList property values, b => (s.predicate property .notInList (.literals values), b)
  | .isNull property, b => (s.predicate property .isNull .absent, b)
  | .isNotNull property, b => (s.predicate property .isNotNull .absent, b)
  | .compare _ comparison property value, b => s.bound property (.compare comparison) value b

/-- Compiles conditions in order with one binder. -/
def compileList (s : Scope) : List Condition → Binder → List Formula × Binder
  | [], b => ([], b)
  | c :: cs, b =>
    let (f, b) := compile s c b
    let (fs, b) := compileList s cs b
    (f :: fs, b)

end

/-! ## Checks -/

/-- Fails with a flaw, if there is one. -/
def rejectFlaw : Option SpecificationFault → Naming Unit
  | some cause => throw (.specification cause)
  | none => pure ()

/-- Compiles conditions on the current supply, without checking them. -/
def bindAll (s : Scope) (conditions : List Condition) : Naming (List Formula × Bindings) := do
  let (formulas, b) := s.compileList conditions (Binder.start (← get))
  set b.supply
  return (formulas, b.bindings)

/-- Checks the conditions routed to a clause. -/
def checkClause (conditions : List Condition) (clause : Clause) : Naming Unit :=
  rejectFlaw (Condition.flawIn? clause (routed clause conditions))

/-- Checks and compiles the conditions routed to a clause. -/
def compileClause (s : Scope) (conditions : List Condition) (clause : Clause) :
    Naming CompiledClause := do
  checkClause conditions clause
  let (formulas, bindings) ← s.bindAll (routed clause conditions)
  return ⟨clause, formulas, bindings⟩

/-- Checks and compiles one condition in a clause. -/
def compileCondition (s : Scope) (c : Condition) (clause : Clause) :
    Naming (Formula × Bindings) := do
  rejectFlaw (c.flaw? clause)
  let (f, b) := s.compile c (Binder.start (← get))
  set b.supply
  return (f, b.bindings)

end Scope

end Criteria
