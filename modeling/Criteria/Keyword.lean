import Criteria.Vocabulary

/-!
# `Criteria.Keyword` — the reserved keys of the condition language

An entry of a condition mapping is an operator when its key is reserved and a property otherwise.

## Contents
- **Keys.** `Keyword.key` writes a keyword, `Keyword.ofKey?` reads it back (`ofKey?_key`).
- **Clauses.** `Keyword.clause`: group and comparison keywords name their clause, all others belong
  to the restriction.
-/

namespace Criteria

/-- An operator of the condition language. -/
inductive Keyword where
  | group (clause : Clause) (connective : Connective)
  | like
  | inList
  | notInList
  | isNull
  | isNotNull
  | compare (clause : Clause) (comparison : Comparison)
  deriving DecidableEq, Repr

namespace Keyword

/-- The reserved key of a keyword. -/
def key : Keyword → String
  | .group .restriction .and => "__AND_WHERE__"
  | .group .restriction .or => "__OR_WHERE__"
  | .group .having .and => "__AND_HAVING__"
  | .group .having .or => "__OR_HAVING__"
  | .like => "__LIKE__"
  | .inList => "__IN__"
  | .notInList => "__NOT_IN__"
  | .isNull => "__IS_NULL__"
  | .isNotNull => "__IS_NOT_NULL__"
  | .compare .restriction .equal => "__WHERE_EQUAL__"
  | .compare .restriction .notEqual => "__WHERE_NOT_EQUAL__"
  | .compare .restriction .less => "__WHERE_LESS__"
  | .compare .restriction .lessOrEqual => "__WHERE_LESS_OR_EQUAL__"
  | .compare .restriction .greater => "__WHERE_GREATER__"
  | .compare .restriction .greaterOrEqual => "__WHERE_GREATER_OR_EQUAL__"
  | .compare .having .equal => "__HAVING_EQUAL__"
  | .compare .having .notEqual => "__HAVING_NOT_EQUAL__"
  | .compare .having .less => "__HAVING_LESS__"
  | .compare .having .lessOrEqual => "__HAVING_LESS_OR_EQUAL__"
  | .compare .having .greater => "__HAVING_GREATER__"
  | .compare .having .greaterOrEqual => "__HAVING_GREATER_OR_EQUAL__"

/-- Every comparison. -/
def comparisons : List Comparison :=
  [.equal, .notEqual, .less, .lessOrEqual, .greater, .greaterOrEqual]

/-- The keywords that name the clause they belong to. -/
def ofClause (clause : Clause) : List Keyword :=
  [.group clause .and, .group clause .or] ++ comparisons.map (.compare clause)

/-- Every keyword. -/
def all : List Keyword :=
  [.like, .inList, .notInList, .isNull, .isNotNull] ++ ofClause .restriction ++ ofClause .having

/-- The keyword that a key is reserved for. -/
def ofKey? (text : String) : Option Keyword := all.find? (·.key = text)

/-- Reading a reserved key gives its keyword. -/
theorem ofKey?_key (k : Keyword) : ofKey? k.key = some k := by
  rcases k with ⟨c, o⟩ | _ | _ | _ | _ | _ | ⟨c, o⟩
  all_goals try cases c
  all_goals try cases o
  all_goals decide

/-- A key that reads as a keyword is its reserved key. -/
theorem key_of_ofKey? {text : String} {k : Keyword} (h : ofKey? text = some k) : k.key = text := by
  simpa using List.find?_some h

/-- The clause that an operator belongs to. -/
def clause : Keyword → Clause
  | .group clause _ => clause
  | .compare clause _ => clause
  | _ => .restriction

end Keyword

end Criteria
