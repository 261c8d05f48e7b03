import Criteria.Condition

/-!
# `Criteria.Condition.Wire` — the JSON form of conditions

A search is written as an array of one-entry mappings. A group is its reserved key beside the list
of its members, a predicate its reserved key beside `property: operand`, a null check its reserved
key beside the property, and a bare property its name beside its value.
-/

namespace Criteria.Condition

/-- A mapping with one entry. -/
def entry (key : String) (value : Json) : Json := .object [(key, value)]

mutual

/-- The one-entry mapping of a condition. -/
def toJson : Condition → Json
  | .bare property value => entry property value
  | .group clause connective members =>
    entry (Keyword.group clause connective).key (.array (toItems members))
  | .like property pattern => entry Keyword.like.key (entry property pattern)
  | .inList property values => entry Keyword.inList.key (entry property (.array values))
  | .notInList property values => entry Keyword.notInList.key (entry property (.array values))
  | .isNull property => entry Keyword.isNull.key (.string property)
  | .isNotNull property => entry Keyword.isNotNull.key (.string property)
  | .compare clause comparison property value =>
    entry (Keyword.compare clause comparison).key (entry property value)

/-- The mappings of a list of conditions. -/
def toItems : List Condition → List Json
  | [] => []
  | c :: cs => toJson c :: toItems cs

end

/-- The JSON form of a search. -/
def searchToJson (conditions : List Condition) : Json := .array (toItems conditions)

end Criteria.Condition
