import Criteria.Identifier
import Criteria.Schema
import Criteria.Settings

/-!
# `Criteria.Stored` — the stored form of identifiers, orders, schemas and settings

A structure is stored as a mapping of its fields in order. It is read from a mapping, where unknown
keys are ignored, or from a list of its fields in order, which may stop early where the rest have
defaults.

## Contents
- **Fields.** `Stored.Fields` looks up a field by key or by position.
- **Identifiers.** `Identifier.toStored`; `Identifier.ofJson?` reads it.
- **Reading and writing.** One pair of functions for each of `Direction`, `SortKey`, `SortOrder`,
  `Schema` and `Settings`.
-/

namespace Criteria

namespace Stored

/-- The stored fields of a structure: a field is found by its key or by its position. -/
abbrev Fields := String → Nat → Option Json

/-- The fields of a mapping, or of a list that is not longer than the structure. -/
def fields? (count : Nat) : Json → Option Fields
  | .object entries => some fun key _ => entries.lookup key
  | .array items => if items.length ≤ count then some fun _ i => items[i]? else none
  | _ => none

/-- Reads a field that has no default. -/
def required {α : Type} (read : Json → Option α) (field : Option Json) : Option α :=
  field.bind read

/-- Reads a field that has a default. -/
def optional {α : Type} (fallback : α) (read : Json → Option α) : Option Json → Option α
  | none => some fallback
  | some v => read v

/-- Reads a list. -/
def list? {α : Type} (read : Json → Option α) : Json → Option (List α)
  | .array items => items.mapM read
  | _ => none

/-- Writes a list of strings. -/
def texts (names : List String) : Json := .array (names.map .string)

end Stored

open Stored

/-- The stored form of a UUID. -/
def Uuid.toStored (u : Uuid) : Json := .string u.text

/-- The stored form of an identifier is that of its value; nothing tells which kind of value it is. -/
def Identifier.toStored : Identifier → Json
  | .null => .null
  | .integer n => .int n.toInt
  | .uuid u => u.toStored
  | .text s => .string s

/-- The direction with a keyword. -/
def Direction.ofKeyword? (word : String) : Option Direction :=
  if word = Direction.ascending.text then some .ascending
  else if word = Direction.descending.text then some .descending
  else none

/-- Reads a direction: its keyword, or the keyword as the only key, with null beside it. -/
def Direction.ofStored? : Json → Option Direction
  | .string word => Direction.ofKeyword? word
  | .object [(word, .null)] => Direction.ofKeyword? word
  | _ => none

/-- The stored form of a direction. -/
def Direction.toStored (d : Direction) : Json := .string d.text

/-- Reads a sort key. -/
def SortKey.ofStored? (v : Json) : Option SortKey := do
  let field ← fields? 2 v
  let property ← required Json.string? (field "property" 0)
  let direction ← optional .ascending Direction.ofStored? (field "direction" 1)
  return ⟨property, direction⟩

/-- The stored form of a sort key. -/
def SortKey.toStored (k : SortKey) : Json :=
  .object [("property", .string k.property), ("direction", k.direction.toStored)]

/-- Reads an order. -/
def SortOrder.ofStored? (v : Json) : Option SortOrder := list? SortKey.ofStored? v

/-- The stored form of an order. -/
def SortOrder.toStored (o : SortOrder) : Json := .array (o.map SortKey.toStored)

/-- Reads a schema, as it stands; it need not be valid. -/
def Schema.ofStored? (v : Json) : Option Schema := do
  let field ← fields? 5 v
  let name ← required Json.string? (field "name" 0)
  let table ← required Json.string? (field "table_name" 1)
  let fields ← required (list? Json.string?) (field "fields" 2)
  let associations ← required (list? Json.string?) (field "associations" 3)
  let identifiers ← required (list? Json.string?) (field "identifier" 4)
  return ⟨name, table, fields, associations, identifiers⟩

/-- The stored form of a schema. -/
def Schema.toStored (s : Schema) : Json :=
  .object [("name", .string s.name), ("table_name", .string s.table), ("fields", texts s.fields),
    ("associations", texts s.associations), ("identifier", texts s.identifiers)]

/-- Reads settings, as they stand; they need not be valid. -/
def Settings.ofStored? (v : Json) : Option Settings := do
  let field ← fields? 3 v
  let rootAlias ← optional Settings.default.rootAlias Json.string? (field "root_alias" 0)
  let stem ← optional Settings.default.stem Json.string? (field "parameter_prefix" 1)
  let order ← optional Settings.default.defaultOrder SortOrder.ofStored?
    (field "default_order_by" 2)
  return ⟨rootAlias, stem, order⟩

/-- The stored form of settings. -/
def Settings.toStored (s : Settings) : Json :=
  .object [("root_alias", .string s.rootAlias), ("parameter_prefix", .string s.stem),
    ("default_order_by", s.defaultOrder.toStored)]

end Criteria
