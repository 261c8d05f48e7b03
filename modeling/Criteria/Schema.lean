import Criteria.Fault

/-!
# `Criteria.Schema` — what the query layer knows of an entity type

## Contents
- **Schemas.** `Schema`: the entity name, its table, and its declared properties.
- **Declarations.** `Schema.declare` adds a property unless it is there; identifiers are fields too.
- **Checks.** `Schema.singleIdentifier` and `Schema.validate`.
- **Registration.** `EntityType` tells types apart. `Catalog` keeps the schema of each registered type: it is read and
  validated once, when the type is registered; registering a type again gives the schema stored the first time, and a
  schema that fails validation is not stored.
-/

namespace Criteria

/-- The mapping of one entity type. -/
structure Schema where
  name : String
  table : String
  fields : List String
  associations : List String
  identifiers : List String
  deriving DecidableEq, Repr

namespace Schema

/-- A schema without properties. -/
def blank (name table : String) : Schema := ⟨name, table, [], [], []⟩

/-! ## Declarations -/

/-- Adds a name at the end unless it is there. -/
def addName (name : String) (names : List String) : List String :=
  if name ∈ names then names else names ++ [name]

/-- The declaration of one property, or of several fields. -/
inductive Declaration where
  | field (name : String)
  | fields (names : List String)
  | association (name : String)
  | identifier (name : String)
  deriving DecidableEq, Repr

/-- Declares a field. -/
def addField (s : Schema) (name : String) : Schema := { s with fields := addName name s.fields }

/-- Declares an association. -/
def addAssociation (s : Schema) (name : String) : Schema :=
  { s with associations := addName name s.associations }

/-- Declares an identifier, which is also a field. -/
def addIdentifier (s : Schema) (name : String) : Schema :=
  { s with identifiers := addName name s.identifiers }.addField name

/-- Applies a declaration. -/
def declare (s : Schema) : Declaration → Schema
  | .field name => s.addField name
  | .fields names => names.foldl addField s
  | .association name => s.addAssociation name
  | .identifier name => s.addIdentifier name

/-- Applies declarations in order. -/
def declareAll (s : Schema) (declarations : List Declaration) : Schema :=
  declarations.foldl declare s

/-! ## Properties -/

/-- Whether a name is a declared field. -/
def hasField (s : Schema) (name : String) : Bool := name ∈ s.fields

/-- Whether a name is a declared association. -/
def hasAssociation (s : Schema) (name : String) : Bool := name ∈ s.associations

/-- Whether a name is a declared field or association. -/
def hasProperty (s : Schema) (name : String) : Bool := s.hasField name || s.hasAssociation name

/-! ## Checks -/

/-- The only identifier field. -/
def singleIdentifier (s : Schema) : Except Fault String :=
  match s.identifiers with
  | [name] => .ok name
  | [] => .error (.schema (.missingIdentifier s.name))
  | names => .error (.schema (.compositeIdentifier s.name names))

/-- Checks that the schema is named, has an identifier, and declares no field as an association. -/
def validate (s : Schema) : Except Fault Unit :=
  if s.name = "" then .error (.schema .emptyName)
  else if s.identifiers = [] then .error (.schema (.noIdentifier s.name))
  else match s.fields.find? s.hasAssociation with
    | some property => .error (.schema (.clash property s.name))
    | none => .ok ()

end Schema

/-! ## Registration -/

/-- A type of entities. Two types may share a name, which is what messages print, so each has an identity besides. -/
structure EntityType where
  identity : Nat
  name : String
  deriving DecidableEq, Repr

/-- The schemas of the registered entity types. -/
abbrev Catalog := OrderedMap EntityType Schema

namespace Catalog

/-- Registers a type. The source of its schema is asked only if the type is not registered yet. -/
def register {m : Type → Type} [Monad m] (c : Catalog) (type : EntityType) (source : m Schema) :
    m (Except Fault Schema × Catalog) := do
  match c.get? type with
  | some schema => return (.ok schema, c)
  | none =>
    let schema ← source
    match schema.validate with
    | .ok () => return (.ok schema, c.set type schema)
    | .error fault => return (.error fault, c)

/-- The schema of a registered type. -/
def lookup (c : Catalog) (type : EntityType) : Except Fault Schema :=
  match c.get? type with
  | some schema => .ok schema
  | none => .error (.schema (.notRegistered type.name))

end Catalog

end Criteria
