import Criteria.Fault

/-!
# `Criteria.Condition` — declarative search conditions

A search is a list of conditions, all of which must hold. Groups nest; every other condition speaks
of one property.

## Contents
- **Conditions.** `Condition`, with the keyword and the clause of a node.
- **Routing.** `Condition.route` sends a top-level condition to a clause, `routed` selects the
  conditions of one clause in their order.
- **Legality.** `Condition.nodeFlaw?` judges one node, `Condition.flaw?` a whole condition: the
  first flaw in preorder.
- **Equality.** `Condition.same` decides equality.
-/

namespace Criteria

/-- A condition of a search. -/
inductive Condition where
  /-- A property beside its value: equality for a scalar, membership for an array, a null check for
      null. -/
  | bare (property : String) (value : Json)
  | group (clause : Clause) (connective : Connective) (members : List Condition)
  | like (property : String) (pattern : Json)
  | inList (property : String) (values : List Json)
  | notInList (property : String) (values : List Json)
  | isNull (property : String)
  | isNotNull (property : String)
  | compare (clause : Clause) (comparison : Comparison) (property : String) (value : Json)
  deriving Inhabited, Repr

namespace Condition

/-- The keyword of a node; a bare property has none. -/
def keyword? : Condition → Option Keyword
  | .bare _ _ => none
  | .group clause connective _ => some (.group clause connective)
  | .like _ _ => some .like
  | .inList _ _ => some .inList
  | .notInList _ _ => some .notInList
  | .isNull _ => some .isNull
  | .isNotNull _ => some .isNotNull
  | .compare clause comparison _ _ => some (.compare clause comparison)

/-- The clause that a node belongs to; a bare property fits both. -/
def clause? (c : Condition) : Option Clause := c.keyword?.map Keyword.clause

/-! ## Routing -/

/-- The clause in which a top-level condition is evaluated. -/
def route (c : Condition) : Clause := c.clause?.getD .restriction

end Condition

/-- The conditions routed to a clause, in their order. -/
def routed (clause : Clause) (conditions : List Condition) : List Condition :=
  conditions.filter (·.route = clause)

namespace Condition

/-! ## Legality -/

/-- The malformed operand of a node, if it has one. -/
def shapeFlaw? : Condition → Option SpecificationFault
  | .bare property value => if value.isObject then some (.mappingValue property) else none
  | .compare clause comparison property value =>
    if value.isComposite then some (.compositeOperand (.compare clause comparison) property)
    else none
  | .like property pattern => if pattern.isComposite then some (.compositePattern property) else none
  | .inList property values => if values.isEmpty then some (.emptyList .inList property) else none
  | .notInList property values =>
    if values.isEmpty then some (.emptyList .notInList property) else none
  | _ => none

/-- What is wrong with a node in a clause, its members apart: it belongs to the other clause, or
    its operand is malformed. -/
def nodeFlaw? (clause : Clause) (c : Condition) : Option SpecificationFault :=
  match c.keyword? with
  | some keyword => if keyword.clause ≠ clause then some (.misplaced keyword clause) else c.shapeFlaw?
  | none => c.shapeFlaw?

mutual

/-- The first flaw of a condition in a clause: a node comes before its members. -/
def flaw? (clause : Clause) : Condition → Option SpecificationFault
  | .group own connective members =>
    (nodeFlaw? clause (.group own connective members)).or (flawIn? clause members)
  | c => nodeFlaw? clause c

/-- The first flaw of a list of conditions in a clause. -/
def flawIn? (clause : Clause) : List Condition → Option SpecificationFault
  | [] => none
  | c :: cs => (flaw? clause c).or (flawIn? clause cs)

end

/-! ## Equality -/

mutual

/-- Whether two conditions are the same. -/
def same : Condition → Condition → Bool
  | .bare p v, .bare q w => p == q && v == w
  | .group c o ms, .group d n ns => c == d && o == n && sameList ms ns
  | .like p v, .like q w => p == q && v == w
  | .inList p vs, .inList q ws => p == q && vs == ws
  | .notInList p vs, .notInList q ws => p == q && vs == ws
  | .isNull p, .isNull q => p == q
  | .isNotNull p, .isNotNull q => p == q
  | .compare c o p v, .compare d n q w => c == d && o == n && p == q && v == w
  | _, _ => false

/-- Whether two lists of conditions are the same. -/
def sameList : List Condition → List Condition → Bool
  | [], [] => true
  | a :: as, b :: bs => same a b && sameList as bs
  | _, _ => false

end

mutual

/-- `same` decides equality of conditions. -/
theorem same_iff : ∀ a b : Condition, same a b = true ↔ a = b
  | .bare _ _, b => by cases b <;> simp [same]
  | .group _ _ _, b => by cases b <;> simp [same, sameList_iff, and_assoc]
  | .like _ _, b => by cases b <;> simp [same]
  | .inList _ _, b => by cases b <;> simp [same]
  | .notInList _ _, b => by cases b <;> simp [same]
  | .isNull _, b => by cases b <;> simp [same]
  | .isNotNull _, b => by cases b <;> simp [same]
  | .compare _ _ _ _, b => by cases b <;> simp [same, and_assoc]

/-- `sameList` decides equality of lists of conditions. -/
theorem sameList_iff : ∀ as bs : List Condition, sameList as bs = true ↔ as = bs
  | [], bs => by cases bs <;> simp [sameList]
  | a :: as, bs => by cases bs <;> simp [sameList, same_iff, sameList_iff]

end

instance : DecidableEq Condition := fun a b => decidable_of_iff _ (same_iff a b)

end Condition

end Criteria
