import Criteria.Json.Printer
import Criteria.Keyword

/-!
# `Criteria.Fault` — what can go wrong, and how it is said

Every failure is a value that names its cause; its wording is given once, by `Fault.message`.

## Contents
- **Causes.** `SpecificationFault` for conditions, orderings and extras, `SchemaFault` for entity
  schemas, `SettingsFault` for settings.
- **Failures.** `Fault` adds the mismatch of entity types, an unusable count and failures that an
  engine words itself; `Fault.category` sorts them.
- **Wording.** `Fault.message`. Everything but an engine's own failure is a mistake of the caller
  (`Fault.isUsage`).
-/

namespace Criteria

/-! ## Causes -/

/-- What a mapping with exactly one entry was expected for. -/
inductive EntryContext where
  | indexedCondition
  | operand (keyword : Keyword)
  deriving DecidableEq, Repr

/-- How a message names the context. -/
def EntryContext.phrase : EntryContext → String
  | .indexedCondition => "an indexed condition"
  | .operand keyword => keyword.key

/-- The strings that the extras are made of. -/
inductive ExtraItem where
  | selectItem
  | joinedSelect
  | selectAlias
  | joinAlias
  | groupBy
  deriving DecidableEq, Repr

/-- How a message names the item. -/
def ExtraItem.phrase : ExtraItem → String
  | .selectItem => "A select item"
  | .joinedSelect => "A joined select alias"
  | .selectAlias => "A select alias"
  | .joinAlias => "A join alias"
  | .groupBy => "A group by expression"

/-- What is wrong with conditions, an ordering or extras. -/
inductive SpecificationFault where
  | conditionsNotMapping (given : Json.Kind)
  | groupNotMapping (keyword : Keyword) (given : Json.Kind)
  | entryNotMapping (context : EntryContext) (given : Json.Kind)
  | entryCount (context : EntryContext) (count : Nat)
  | operandNotKeyed (keyword : Keyword)
  | propertyNotNamed (keyword : Keyword) (given : Json.Kind)
  | mappingValue (property : String)
  | compositeOperand (keyword : Keyword) (property : String)
  | compositePattern (property : String)
  | emptyList (keyword : Keyword) (property : String)
  | misplaced (keyword : Keyword) (clause : Clause)
  | orderingShape
  | positionalNotNamed
  | directionNotText (property : String)
  | unknownDirection (text : String)
  | extrasShape
  | unknownExtra (key : String)
  | selectsShape
  | joinsShape (kind : JoinKind)
  | groupBysShape
  | extraNotText (item : ExtraItem)
  deriving DecidableEq, Repr

/-- What is wrong with an entity schema, or with a request that its schema cannot satisfy. -/
inductive SchemaFault where
  | emptyName
  | noIdentifier (entity : String)
  | clash (property entity : String)
  | missingIdentifier (entity : String)
  | compositeIdentifier (entity : String) (identifiers : List String)
  | notRegistered (typeName : String)
  | noAccessor (entity field : String)
  deriving DecidableEq, Repr

/-- What is wrong with settings. -/
inductive SettingsFault where
  | invalidRootAlias (value : String)
  | invalidStem (value : String)
  | unreadable
  deriving DecidableEq, Repr

/-- The categories that failures fall into. -/
inductive Category where
  | specification
  | typeMismatch
  | schema
  | settings
  | persistence
  deriving DecidableEq, Repr

/-- A failure. -/
inductive Fault where
  | specification (cause : SpecificationFault)
  | typeMismatch (expected found : String)
  | schema (cause : SchemaFault)
  | settings (cause : SettingsFault)
  | nonIntegerCount (entity : String) (value : Json)
  /-- A failure that an engine puts into its own words. -/
  | reported (category : Category) (text : String)
  deriving DecidableEq, Repr

/-- The category of a failure. -/
def Fault.category : Fault → Category
  | .specification _ => .specification
  | .typeMismatch _ _ => .typeMismatch
  | .schema _ => .schema
  | .settings _ => .settings
  | .nonIntegerCount _ _ => .persistence
  | .reported category _ => category

/-- Whether the caller caused the failure, and not the engine. -/
def Fault.isUsage (fault : Fault) : Bool := fault.category ≠ .persistence

/-! ## Wording -/

/-- A text between double quotes, as messages name things. -/
def named (text : String) : String := "\"" ++ text ++ "\""

/-- The wording of a fault of conditions, orderings or extras. -/
def SpecificationFault.text : SpecificationFault → String
  | .conditionsNotMapping given => "The conditions must be a mapping, " ++ given.phrase ++ " given."
  | .groupNotMapping keyword given =>
    "The value of " ++ keyword.key ++ " must be a mapping, " ++ given.phrase ++ " given."
  | .entryNotMapping context given =>
    "The value of " ++ context.phrase ++ " must be a mapping with exactly one entry, " ++
      given.phrase ++ " given."
  | .entryCount context count =>
    "The value of " ++ context.phrase ++ " must be a mapping with exactly one entry (" ++
      toString count ++ " given)."
  | .operandNotKeyed keyword =>
    "The value of " ++ keyword.key ++ " must be keyed by a property name."
  | .propertyNotNamed keyword given =>
    "The value of " ++ keyword.key ++ " must be a property name, " ++ given.phrase ++ " given."
  | .mappingValue property =>
    "The value of the property " ++ named property ++ " cannot be a mapping."
  | .compositeOperand keyword property =>
    "The " ++ keyword.key ++ " operand of " ++ named property ++ " must be a scalar."
  | .compositePattern property =>
    "The " ++ Keyword.like.key ++ " pattern of " ++ named property ++ " must be a scalar."
  | .emptyList keyword property =>
    "The " ++ keyword.key ++ " list of " ++ named property ++ " cannot be empty."
  | .misplaced keyword clause =>
    "The " ++ keyword.key ++ " condition cannot be used inside a " ++ clause.text ++ " clause."
  | .orderingShape => "The order by parameter must be a mapping or an array."
  | .positionalNotNamed => "A positional order entry must be a property name."
  | .directionNotText property =>
    "The order direction of " ++ named property ++ " must be a string."
  | .unknownDirection text =>
    "The order direction " ++ named text ++ " is not valid (expected ASC or DESC)."
  | .extrasShape => "The extras must be a mapping."
  | .unknownExtra key => "The extra " ++ named key ++ " is not supported."
  | .selectsShape => "The SELECTS parameter must be an array."
  | .joinsShape kind =>
    "The " ++ (match kind with | .left => "LEFT_JOINS" | .inner => "INNER_JOINS") ++
      " parameter must be a mapping of association to alias."
  | .groupBysShape => "The GROUP_BYS parameter must be an array."
  | .extraNotText item => item.phrase ++ " must be a string."

/-- The wording of a fault of a schema. -/
def SchemaFault.text : SchemaFault → String
  | .emptyName => "The entity name cannot be empty."
  | .noIdentifier entity =>
    "The entity " ++ named entity ++ " does not declare any identifier field."
  | .clash property entity =>
    "The property " ++ named property ++ " of " ++ named entity ++
      " is declared both as a field and as an association."
  | .missingIdentifier entity => "The entity " ++ named entity ++ " has no identifier field."
  | .compositeIdentifier entity identifiers =>
    "The entity " ++ named entity ++ " has a composite identifier (" ++
      String.intercalate ", " identifiers ++ "); a single identifier is required."
  | .notRegistered typeName =>
    "The entity type " ++ named typeName ++ " has not been registered."
  | .noAccessor entity field =>
    "The entity " ++ named entity ++ " does not expose its " ++ named field ++ " identifier."

/-- The wording of a fault of settings. -/
def SettingsFault.text : SettingsFault → String
  | .invalidRootAlias value => "Invalid root_alias: " ++ named value ++ " is not an identifier"
  | .invalidStem value =>
    "Invalid parameter_prefix: " ++ named value ++ " is not an identifier"
  | .unreadable => "The settings cannot be read"

/-- How a message introduces a failure of a category. -/
def Category.heading : Category → String
  | .specification => "Specification error: "
  | .typeMismatch => "Type mismatch: "
  | .schema => "Metadata error: "
  | .settings => "Configuration error: "
  | .persistence => "Persistence error: "

/-- The wording of a failure without its heading. -/
def Fault.text : Fault → String
  | .specification cause => cause.text
  | .typeMismatch expected found =>
    "expected entities of type " ++ named expected ++ " (type " ++ named found ++ " found)"
  | .schema cause => cause.text
  | .settings cause => cause.text
  | .nonIntegerCount entity value =>
    "The count of " ++ named entity ++ " returned a non-integer value: " ++ value.text
  | .reported _ text => text

/-- The whole message of a failure. -/
def Fault.message (fault : Fault) : String := fault.category.heading ++ fault.text

end Criteria
