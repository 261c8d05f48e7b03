import Criteria.Compilation
import Criteria.Extras
import Criteria.Query

/-!
# `Criteria.Query.Assembly` — queries from search requests

A request is assembled in a fixed order: extras, conditions, order, window. A malformed condition
fails the assembly before the first parameter is named.

## Contents
- **Steps.** `Scope.applyExtras`, `Scope.applyConditions`, `Scope.applyOrder` and
  `Query.applyWindow` add one part of a request to a query.
- **Requests.** `FindRequest`, and `Scope.find` and `Scope.count`, which assemble whole queries.
-/

namespace Criteria

/-- Sets the bounds that a window gives and leaves the others. -/
def Query.applyWindow (q : Query) (limit offset : Option UInt64) : Query :=
  let q := limit.elim q q.limitTo
  offset.elim q q.startAt

namespace Scope

/-- The query for every root entity. -/
def base (s : Scope) : Query := Query.ofEntity s.schema.name s.rootAlias

/-! ## Steps -/

/-- The text of a select item. -/
def selectText (s : Scope) : SelectItem → String
  | .raw text => text
  | .aliased expression name => (s.resolve expression).text ++ " AS " ++ name
  | .joined name => name

/-- Adds joins of one kind. -/
def addJoins (s : Scope) (kind : JoinKind) (q : Query) (joins : List (String × String)) : Query :=
  joins.foldl (fun q j => q.addJoin ⟨kind, s.resolve j.1, j.2⟩) q

/-- The text of a grouping; a name from the select list is taken as it is. -/
def groupByText (s : Scope) (extras : Extras) (name : String) : String :=
  if extras.isSelected name then name else (s.resolve name).text

/-- Adds the select list, joins and groupings of extras. -/
def applyExtras (s : Scope) (q : Query) (extras : Extras) : Query :=
  let q := extras.selects.elim q fun items => q.selecting (items.map s.selectText)
  let q := s.addJoins .left q extras.leftJoins
  let q := s.addJoins .inner q extras.innerJoins
  extras.groupBys.foldl (fun q name => q.addGroupBy (s.groupByText extras name)) q

/-- Adds the conditions of both clauses and their parameters. All conditions are checked before the
    first parameter is named. -/
def applyConditions (s : Scope) (q : Query) (conditions : List Condition) : Naming Query := do
  checkClause conditions .restriction
  checkClause conditions .having
  let restriction ← s.compileClause conditions .restriction
  let having ← s.compileClause conditions .having
  let q := restriction.formulas.foldl Query.addRestriction q
  let q := having.formulas.foldl Query.addHaving q
  return (q.bindAll restriction.bindings).bindAll having.bindings

/-- Adds sort keys. -/
def applyOrder (s : Scope) (q : Query) (order : SortOrder) : Query :=
  order.foldl (fun q k => q.addOrder (s.resolve k.property).text k.direction) q

end Scope

/-! ## Requests -/

/-- A request for entities. -/
structure FindRequest where
  conditions : List Condition
  order : SortOrder
  limit : Option UInt64
  offset : Option UInt64
  extras : Extras

namespace Scope

/-- Assembles the query of a request. -/
def find (s : Scope) (r : FindRequest) : Naming Query := do
  let q ← s.applyConditions (s.applyExtras s.base r.extras) r.conditions
  return (s.applyOrder q r.order).applyWindow r.limit r.offset

/-- Assembles the query for the number of entities that meet conditions. -/
def count (s : Scope) (conditions : List Condition) : Naming Query :=
  s.applyConditions (s.base.selecting ["COUNT(" ++ s.rootAlias ++ ")"]) conditions

end Scope

end Criteria
