import Criteria.Settings.Place
import Criteria.Stored

/-!
# `Criteria.Settings.Source` — settings from layered sources

Settings are gathered from a file and from environment variables into one table of values, the
later source replacing the earlier. Keys are in lower case and may lead into an entry. Values are
loosely typed: a scalar may stand where a text is expected, and a direction may be in any case.

Each source is a map without an order of its own, and the order in which its entries are written shows where two
keys lead to one setting. So the order is left open: it is an `Arrangement` of the keys.

## Contents
- **Tables.** `Arrangement` and `merged`.
- **Decoding.** `scalarText?`, `direction?`, `sortKey?` and `Settings.ofTable?`.
- **Environment.** `environmentEntries` selects the variables that name a setting.
-/

namespace Criteria.Settings

/-- A character in lower case. The Kelvin sign is the one character beyond ASCII whose lower case is an ASCII letter;
    all others are kept, because nothing that is looked at in a key goes beyond ASCII. -/
def loweredChar (c : Char) : Char := if c = '\u212A' then 'k' else c.toLower

/-- A text in lower case. -/
def lowered (s : String) : String := String.ofList (s.toList.map loweredChar)

/-- An order for the keys of maps that have none of their own. -/
structure Arrangement where
  arrange : List String → List String
  perm : ∀ keys, (arrange keys).Perm keys

namespace Arrangement

/-- Keys in the order in which they were inserted. -/
def inserted : Arrangement := ⟨id, .refl⟩

/-- The entries of a table in the order of an arrangement. -/
def entries (a : Arrangement) (table : Table) : Table :=
  (a.arrange (table.map Prod.fst)).filterMap fun key => (table.lookup key).map fun v => (key, v)

end Arrangement

/-- Writes entries into a table at the places of their keys, whatever the case. -/
def merged (a : Arrangement) (table entries : Table) : Table :=
  (a.entries entries).foldl (fun t e => (Place.ofKey (lowered e.1)).put e.2 t) table

/-! ## Decoding -/

/-- The text of an integer: in full within 64 signed bits, beyond them as the nearest binary64
    value. -/
def integerText (n : Int) : String :=
  if Json.fitsSigned n then toString n
  else (Decimal.nearestBits? (n < 0) ⟨n.natAbs, 0⟩).elim "" fun bits =>
    String.ofList (Decimal.plainLayout.floatText bits)

/-- The text that a scalar stands for. -/
def scalarText? : Json → Option String
  | .string s => some s
  | .bool b => some (if b then "true" else "false")
  | .number (.integer n) => some (integerText n)
  | .number (.float bits) => some (String.ofList (Decimal.plainLayout.floatText bits))
  | _ => none

/-- The direction with a keyword of any case. -/
def directionWord? (word : String) : Option Direction :=
  Direction.ofKeyword? (String.ofList (word.toList.map Char.toUpper))

/-- Reads a direction: its keyword, or the keyword as the only key. -/
def direction? : Json → Option Direction
  | .string word => directionWord? word
  | .object [(word, _)] => directionWord? word
  | _ => none

/-- The fields of a mapping or a list. -/
def fields? : Json → Option Stored.Fields
  | .object entries => some fun key _ => entries.lookup key
  | .array items => some fun _ i => items[i]?
  | _ => none

/-- Reads a sort key. -/
def sortKey? (v : Json) : Option SortKey := do
  let field ← fields? v
  let property ← Stored.required scalarText? (field "property" 0)
  let direction ← Stored.optional .ascending direction? (field "direction" 1)
  return ⟨property, direction⟩

/-- Reads the settings of a table, as they stand. -/
def ofTable? (table : Table) : Option Settings := do
  let rootAlias ← Stored.optional default.rootAlias scalarText? (table.lookup "root_alias")
  let stem ← Stored.optional default.stem scalarText? (table.lookup "parameter_prefix")
  let order ← Stored.optional default.defaultOrder (Stored.list? sortKey?)
    (table.lookup "default_order_by")
  return ⟨rootAlias, stem, order⟩

/-! ## Environment -/

/-- What the names of variables that hold settings begin with, in lower case. -/
def variableStem : List Char := "entity_query_".toList

/-- The key of a variable that holds a setting: its name in lower case, without the stem. -/
def variableKey? (name : String) : Option String :=
  let cs := (lowered name).toList
  if variableStem.isPrefixOf cs then some (String.ofList (cs.drop variableStem.length)) else none

/-- The entry of a variable that holds a setting. -/
def entryFor? (v : String × String) : Option (String × Json) :=
  (variableKey? v.1).map fun key => (key, .string v.2)

/-- The entries of an environment. Of several variables with one key the last counts. -/
def environmentEntries (environment : List (String × String)) : Table :=
  (OrderedMap.ofList (environment.filterMap entryFor?)).entries

end Criteria.Settings
