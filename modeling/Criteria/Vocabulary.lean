/-!
# `Criteria.Vocabulary` — the words of the query language

The closed word lists that conditions, expressions and queries share, each with its written form.

## Contents
- **Clauses.** `Clause`: where a condition is evaluated, before or after grouping.
- **Logic.** `Connective` joins conditions; `Comparison` compares a property with a scalar.
- **Queries.** `JoinKind` and `Direction`.
-/

namespace Criteria

/-- The clause of a query in which a condition is evaluated. -/
inductive Clause where
  | restriction
  | having
  deriving DecidableEq, Repr

/-- The keyword that opens the clause. -/
def Clause.text : Clause → String
  | .restriction => "WHERE"
  | .having => "HAVING"

/-- How the members of a group are joined. -/
inductive Connective where
  | and
  | or
  deriving DecidableEq, Repr

/-- The word between two members of a group. -/
def Connective.text : Connective → String
  | .and => "AND"
  | .or => "OR"

/-- A comparison with a scalar. -/
inductive Comparison where
  | equal
  | notEqual
  | less
  | lessOrEqual
  | greater
  | greaterOrEqual
  deriving DecidableEq, Repr

/-- The symbol of a comparison. -/
def Comparison.symbol : Comparison → String
  | .equal => "="
  | .notEqual => "!="
  | .less => "<"
  | .lessOrEqual => "<="
  | .greater => ">"
  | .greaterOrEqual => ">="

/-- How a join treats root entities without a partner. -/
inductive JoinKind where
  | inner
  | left
  deriving DecidableEq, Repr

/-- The keyword of a join. -/
def JoinKind.text : JoinKind → String
  | .inner => "INNER JOIN"
  | .left => "LEFT JOIN"

/-- The direction of a sort key; ascending is the default. -/
inductive Direction where
  | ascending
  | descending
  deriving DecidableEq, Repr, Inhabited

/-- The keyword of a direction. -/
def Direction.text : Direction → String
  | .ascending => "ASC"
  | .descending => "DESC"

end Criteria
