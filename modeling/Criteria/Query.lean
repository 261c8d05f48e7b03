import Criteria.Formula.Normal
import Criteria.Formula.Text
import Criteria.Naming
import Criteria.SortOrder

/-!
# `Criteria.Query` — queries and their text

## Contents
- **Parts.** `Window` bounds the results, `Join` brings in an association.
- **Queries.** `Query` holds the parts of a query. `Query.restriction` and `Query.group` are the
  formulas of its two clauses.
- **Text.** `Query.text`.
-/

namespace Criteria

/-! ## Parts -/

/-- The window of a result. An absent bound is not zero. -/
structure Window where
  limit : Option UInt64
  offset : Option UInt64
  deriving DecidableEq, Repr

/-- The window without bounds. -/
def Window.unbounded : Window := ⟨none, none⟩

/-- Whether neither bound is set. -/
def Window.isUnbounded (w : Window) : Bool := w.limit.isNone && w.offset.isNone

/-- The text of a bound behind its keyword; an absent bound has none. -/
def Window.boundText (keyword : String) : Option UInt64 → String
  | some n => " " ++ keyword ++ " " ++ toString n.toNat
  | none => ""

/-- The text of a window. -/
def Window.text (w : Window) : String :=
  boundText "LIMIT" w.limit ++ boundText "OFFSET" w.offset

/-- An association joined under an alias. -/
structure Join where
  kind : JoinKind
  association : Property
  /-- The alias that stands for the association in the rest of the query. -/
  name : String
  deriving DecidableEq, Repr

/-- The text of a join. -/
def Join.text (j : Join) : String := j.kind.text ++ " " ++ j.association.text ++ " " ++ j.name

/-! ## Queries -/

/-- A query for entities, with the values of its parameters. -/
structure Query where
  entity : String
  rootAlias : String
  select : List String
  joins : List Join
  /-- Formulas that must hold of every result. -/
  restrictions : List Formula
  groupBys : List String
  /-- Formulas that must hold after grouping. -/
  havings : List Formula
  order : List (String × Direction)
  window : Window
  bindings : Bindings
  deriving DecidableEq, Repr

namespace Query

/-- The query for every entity of a name. -/
def ofEntity (entity rootAlias : String) : Query :=
  ⟨entity, rootAlias, [rootAlias], [], [], [], [], [], .unbounded, .empty⟩

/-- The restriction as one formula; absent when nothing is restricted. -/
def restriction (q : Query) : Option Formula := Formula.conjunction q.restrictions

/-- The condition after grouping as one formula; absent when there is none. -/
def having (q : Query) : Option Formula := Formula.conjunction q.havings

/-- Replaces the select list. -/
def selecting (q : Query) (items : List String) : Query := { q with select := items }

/-- Adds an item to the select list. -/
def addSelect (q : Query) (item : String) : Query := { q with select := q.select ++ [item] }

/-- Adds a join. -/
def addJoin (q : Query) (join : Join) : Query := { q with joins := q.joins ++ [join] }

/-- Adds a restriction. -/
def addRestriction (q : Query) (f : Formula) : Query :=
  { q with restrictions := q.restrictions ++ [f] }

/-- Adds a condition after grouping. -/
def addHaving (q : Query) (f : Formula) : Query := { q with havings := q.havings ++ [f] }

/-- Adds a grouping. -/
def addGroupBy (q : Query) (expression : String) : Query :=
  { q with groupBys := q.groupBys ++ [expression] }

/-- Adds a sort key. -/
def addOrder (q : Query) (property : String) (direction : Direction) : Query :=
  { q with order := q.order ++ [(property, direction)] }

/-- Sets the most results to give. -/
def limitTo (q : Query) (limit : UInt64) : Query := { q with window := { q.window with limit } }

/-- Sets the number of results to skip. -/
def startAt (q : Query) (offset : UInt64) : Query := { q with window := { q.window with offset } }

/-- Binds one parameter. -/
def bindOne (q : Query) (name : String) (value : Json) : Query :=
  { q with bindings := q.bindings.set name value }

/-- Binds every parameter of a table. -/
def bindAll (q : Query) (bindings : Bindings) : Query :=
  { q with bindings := q.bindings.extend bindings }

/-! ## Text -/

/-- A comma-separated list behind a keyword; an empty list has no text. -/
def listClause (keyword : String) : List String → String
  | [] => ""
  | items => " " ++ keyword ++ " " ++ String.intercalate ", " items

/-- A formula behind the keyword of its clause; an absent formula has no text. -/
def formulaClause (clause : Clause) : Option Formula → String
  | some f => " " ++ clause.text ++ " " ++ f.clauseText
  | none => ""

/-- The text of a query, with a colon in front of each parameter. -/
def text (q : Query) : String :=
  "SELECT " ++ String.intercalate ", " q.select ++ " FROM " ++ q.entity ++ " " ++ q.rootAlias ++
    String.join (q.joins.map fun j => " " ++ j.text) ++
    formulaClause .restriction q.restriction ++
    listClause "GROUP BY" q.groupBys ++
    formulaClause .having q.having ++
    listClause "ORDER BY" (q.order.map fun k => k.1 ++ " " ++ k.2.text) ++
    q.window.text

end Query

end Criteria
