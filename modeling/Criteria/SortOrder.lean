import Criteria.Character
import Criteria.Fault

/-!
# `Criteria.SortOrder` — the order of results

## Contents
- **Keys.** `SortKey` is a property beside a direction; `SortOrder` lists keys, most significant
  first.
- **Directions.** `Direction.ofText` reads a direction, whatever its case and surrounding blanks.
- **JSON.** `SortOrder.ofJson`: positional entries ascend, named entries carry their direction.
-/

namespace Criteria

/-- A property beside the direction in which it sorts. -/
structure SortKey where
  property : String
  direction : Direction
  deriving DecidableEq, Repr

/-- The order of results, most significant key first. -/
abbrev SortOrder := List SortKey

/-- Reads a direction. -/
def Direction.ofText (text : String) : Except Fault Direction :=
  let word := (trimmed text.toList).map Char.toUpper
  if word = ['A', 'S', 'C'] then .ok .ascending
  else if word = ['D', 'E', 'S', 'C'] then .ok .descending
  else .error (.specification (.unknownDirection text))

/-- Reads an entry that only gives a position. -/
def SortKey.ofPositional : Json → Except Fault SortKey
  | .string property => .ok ⟨property, .ascending⟩
  | _ => .error (.specification .positionalNotNamed)

/-- Reads an entry of a mapping. -/
def SortKey.ofEntry (e : String × Json) : Except Fault SortKey :=
  if Json.isPositional e.1 then SortKey.ofPositional e.2
  else match e.2 with
    | .string text => (Direction.ofText text).map fun direction => ⟨e.1, direction⟩
    | _ => .error (.specification (.directionNotText e.1))

/-- Reads an order; null is no order. -/
def SortOrder.ofJson : Json → Except Fault SortOrder
  | .null => .ok []
  | .array items => items.mapM SortKey.ofPositional
  | .object entries => entries.mapM SortKey.ofEntry
  | _ => .error (.specification .orderingShape)

end Criteria
