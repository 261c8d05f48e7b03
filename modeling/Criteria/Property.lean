import Criteria.Schema
import Criteria.Visible

/-!
# `Criteria.Property` — properties as a query names them

## Contents
- **References.** `Property`: a declared property behind an alias, or a text taken as it is.
- **Scopes.** `Scope` is the root alias of a query beside the schema of its root entity;
  `Scope.resolve` qualifies the names that have no dot and are declared, and `Scope.summary` is one line about
  the scope.
-/

namespace Criteria

/-- A reference to a property inside a query. -/
inductive Property where
  /-- A declared property behind the alias of the entity that owns it. -/
  | qualified (owner field : String)
  | verbatim (text : String)
  deriving DecidableEq, Repr

/-- The text of a reference. -/
def Property.text : Property → String
  | .qualified owner field => owner ++ "." ++ field
  | .verbatim text => text

/-- What names of properties mean in a query. -/
structure Scope where
  /-- The alias of the root entity. -/
  rootAlias : String
  schema : Schema
  deriving DecidableEq, Repr

namespace Scope

/-- Whether a name stands for a declared property of the root entity. -/
def declares (s : Scope) (name : String) : Bool :=
  !name.toList.contains '.' && s.schema.hasProperty name

/-- The reference that a name stands for. Joined aliases, aggregates and select aliases are taken as
    they are. -/
def resolve (s : Scope) (name : String) : Property :=
  if s.declares name then .qualified s.rootAlias name else .verbatim name

/-- The summary of the queries of a scope whose parameters have a stem. -/
def summary (s : Scope) (stem : String) : String :=
  "EntityRepository \x7b entity: " ++ shown s.schema.name ++ ", root_alias: " ++ shown s.rootAlias ++
    ", parameter_prefix: " ++ shown stem ++ " \x7d"

end Scope

end Criteria
