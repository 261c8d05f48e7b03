import Criteria.Identifier
import Criteria.IndexedMap
import Criteria.Schema

/-!
# `Criteria.Record` — entities as an engine hands them over

## Contents
- **Records.** `Record` is what the query layer needs to know of an entity: its type and the values of its
  identifier fields.
- **Types.** `ofType` passes the records of one type and rejects every other.
- **Keying.** `keyById` indexes records by their only identifier.
-/

namespace Criteria

/-- What the query layer knows of the entities that an engine exchanges. -/
class Record (ρ : Type) where
  /-- The type of the entity. -/
  type : ρ → EntityType
  /-- The value of an identifier field; absent when the type gives no access to the field. -/
  identifier? : ρ → String → Option Identifier

variable {ρ : Type} [Record ρ]

/-! ## Types -/

/-- Passes a record of a type. The failure prints the names of both types, which may be the same. -/
def ofType (type : EntityType) (r : ρ) : Except Fault ρ :=
  if Record.type r = type then .ok r
  else .error (.typeMismatch type.name (Record.type r).name)

/-- The identifier of a record under a field. -/
def identifierOf (schema : Schema) (field : String) (r : ρ) : Except Fault Identifier :=
  match Record.identifier? r field with
  | some id => .ok id
  | none => .error (.schema (.noAccessor schema.name field))

/-! ## Keying -/

/-- Records by their identifiers, in order of first insertion. -/
abbrev Keyed (ρ : Type) := IndexedMap Identifier ρ

/-- Adds a record under its identifier. -/
def Keyed.add (schema : Schema) (field : String) (keyed : Keyed ρ) (r : ρ) :
    Except Fault (Keyed ρ) :=
  (identifierOf schema field r).map fun id => keyed.set id r

/-- Indexes records by their only identifier. Every record must be of the type; a repeated
    identifier keeps its position and takes the last record. -/
def keyById (type : EntityType) (schema : Schema) (records : List ρ) : Except Fault (Keyed ρ) := do
  let field ← schema.singleIdentifier
  let records ← records.mapM (ofType type)
  records.foldlM (Keyed.add schema field) .empty

/-- Whether a record has a value for every field of a list; the first missing value decides. -/
def hasValues (schema : Schema) (r : ρ) : List String → Except Fault Bool
  | [] => .ok true
  | field :: fields => do
    let id ← identifierOf schema field r
    if id.isNull then .ok false else hasValues schema r fields

end Criteria
