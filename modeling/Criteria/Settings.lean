import Criteria.Naming
import Criteria.SortOrder

/-!
# `Criteria.Settings` — root alias, parameter stem and default order

## Contents
- **Settings.** `Settings`, with the values that hold when nothing else is said.
- **Checks.** Root alias and parameter stem must be plain identifiers (`isPlainIdentifier`).
- **Variables.** `Settings.ofLookup` takes alias and stem from a source of variables.
-/

namespace Criteria

/-- The settings of the query layer. -/
structure Settings where
  /-- The alias of the root entity in queries. -/
  rootAlias : String
  /-- The stem of parameter names. -/
  stem : String
  /-- The order of results when a search gives none. -/
  defaultOrder : SortOrder
  deriving DecidableEq, Repr

/-- Whether a text is an ASCII letter or underscore, followed by ASCII letters, digits and
    underscores. -/
def isPlainIdentifier (text : String) : Bool :=
  match text.toList with
  | [] => false
  | c :: cs => (c.isAlpha || c = '_') && cs.all fun c => c.isAlphanum || c = '_'

namespace Settings

/-- The alias of the root entity unless settings give another. -/
def defaultRootAlias : String := "entity"

/-- The settings that hold when nothing else is said. -/
def default : Settings := ⟨defaultRootAlias, NameSupply.defaultStem, []⟩

/-- Checks the root alias and the parameter stem. -/
def validate (s : Settings) : Except Fault Unit :=
  if !isPlainIdentifier s.rootAlias then .error (.settings (.invalidRootAlias s.rootAlias))
  else if !isPlainIdentifier s.stem then .error (.settings (.invalidStem s.stem))
  else .ok ()

/-- Passes settings that are valid. -/
def checked (s : Settings) : Except Fault Settings := s.validate.map fun () => s

/-- The supply of parameter names. -/
def supply (s : Settings) : NameSupply := NameSupply.ofStem s.stem

/-! ## Variables -/

/-- The variable that gives the root alias. -/
def rootAliasVariable : String := "ENTITY_QUERY_ROOT_ALIAS"

/-- The variable that gives the parameter stem. -/
def stemVariable : String := "ENTITY_QUERY_PARAMETER_PREFIX"

/-- The settings that a source of variables gives. -/
def ofLookup (lookup : String → Option String) : Except Fault Settings :=
  checked { default with
    rootAlias := (lookup rootAliasVariable).getD default.rootAlias
    stem := (lookup stemVariable).getD default.stem }

end Settings

end Criteria
