import Criteria.Json
import Criteria.Property
import Criteria.Vocabulary

/-!
# `Criteria.Formula` — boolean formulas over predicates

## Contents
- **Predicates.** `Predicate`: a property, a `Test` and an `Operand`.
- **Formulas.** `Formula`, with its predicates read from left to right (`leaves`) and the parameters
  they mention (`parameterNames`).
- **Equality.** `Formula.same` decides equality.
-/

namespace Criteria

/-- The test of a predicate. -/
inductive Test where
  | compare (comparison : Comparison)
  | like
  | inList
  | notInList
  | isNull
  | isNotNull
  deriving DecidableEq, Repr

/-- What a property is tested against: a bound parameter, values written into the query, or nothing. -/
inductive Operand where
  | parameter (name : String)
  | literals (values : List Json)
  | absent
  deriving DecidableEq, Repr

/-- The parameter that an operand refers to. -/
def Operand.parameter? : Operand → Option String
  | .parameter name => some name
  | _ => none

/-- A test of one property. -/
structure Predicate where
  property : Property
  test : Test
  operand : Operand
  deriving DecidableEq, Repr

/-- A boolean combination of predicates. -/
inductive Formula where
  | leaf (predicate : Predicate)
  | group (connective : Connective) (members : List Formula)
  deriving Repr

namespace Formula

instance : Inhabited Formula := ⟨.group .and []⟩

mutual

/-- The predicates from left to right. -/
def leaves : Formula → List Predicate
  | .leaf p => [p]
  | .group _ members => leavesIn members

/-- The predicates of a list of formulas from left to right. -/
def leavesIn : List Formula → List Predicate
  | [] => []
  | f :: fs => leaves f ++ leavesIn fs

end

/-- The number of predicates. -/
def leafCount (f : Formula) : Nat := f.leaves.length

/-- The parameters that the predicates refer to, from left to right. -/
def parameterNames (f : Formula) : List String := f.leaves.filterMap (·.operand.parameter?)

/-- Whether this is a group without members. -/
def isEmptyGroup : Formula → Bool
  | .group _ [] => true
  | _ => false

/-! ## Equality -/

mutual

/-- Whether two formulas are the same. -/
def same : Formula → Formula → Bool
  | .leaf p, .leaf q => p == q
  | .group o fs, .group k gs => o == k && sameList fs gs
  | _, _ => false

/-- Whether two lists of formulas are the same. -/
def sameList : List Formula → List Formula → Bool
  | [], [] => true
  | f :: fs, g :: gs => same f g && sameList fs gs
  | _, _ => false

end

mutual

/-- `same` decides equality of formulas. -/
theorem same_iff : ∀ f g : Formula, same f g = true ↔ f = g
  | .leaf _, g => by cases g <;> simp [same]
  | .group _ _, g => by cases g <;> simp [same, sameList_iff]

/-- `sameList` decides equality of lists of formulas. -/
theorem sameList_iff : ∀ fs gs : List Formula, sameList fs gs = true ↔ fs = gs
  | [], gs => by cases gs <;> simp [sameList]
  | f :: fs, gs => by cases gs <;> simp [sameList, same_iff, sameList_iff]

end

instance : DecidableEq Formula := fun f g => decidable_of_iff _ (same_iff f g)

end Formula

end Criteria
