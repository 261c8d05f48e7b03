import Criteria.Condition

/-!
# `Criteria.Condition.Reader` — conditions from their JSON form

The entries of a mapping are conditions: a reserved key is an operator, a numeric key or an array
position holds one further entry, and any other key is a property beside its value.

## Contents
- **Keys.** `EntryKey` tells positions from names.
- **Operands.** `namedOperand` reads the single `property: operand` entry of an operator.
- **Entries.** `ofEntry`, by structural recursion on the value of the entry.
- **Searches.** `Condition.ofJson` reads a whole search.
-/

namespace Criteria

/-- The key of an entry: a position, or a name. -/
inductive EntryKey where
  | position
  | name (text : String)
  deriving DecidableEq, Repr

/-- The key that a text stands for. -/
def EntryKey.ofText (text : String) : EntryKey :=
  if Json.isPositional text then .position else .name text

namespace Condition

/-- A failure of reading. -/
def reject {α : Type} (cause : SpecificationFault) : Except Fault α := .error (.specification cause)

/-! ## Operands -/

/-- The single entry of an operator, which is keyed by a property name. -/
def namedOperand (keyword : Keyword) : Json → Except Fault (String × Json)
  | .object [(text, operand)] =>
    if Json.isPositional text then reject (.operandNotKeyed keyword) else .ok (text, operand)
  | .array [_] => reject (.operandNotKeyed keyword)
  | .object entries => reject (.entryCount (.operand keyword) entries.length)
  | .array items => reject (.entryCount (.operand keyword) items.length)
  | v => reject (.entryNotMapping (.operand keyword) v.kind)

/-- The elements of a list operand: the items of an array, the values of a mapping, or one scalar. -/
def elements : Json → List Json
  | .array items => items
  | .object entries => entries.map Prod.snd
  | scalar => [scalar]

/-- Reads a property beside its value. -/
def ofBare (property : String) (value : Json) : Except Fault Condition :=
  if value.isObject then reject (.mappingValue property) else .ok (.bare property value)

/-- Reads a pattern match. -/
def ofLike (value : Json) : Except Fault Condition := do
  let (property, pattern) ← namedOperand .like value
  if pattern.isComposite then reject (.compositePattern property) else .ok (.like property pattern)

/-- Reads a membership test. -/
def ofInList (value : Json) : Except Fault Condition := do
  let (property, operand) ← namedOperand .inList value
  .ok (.inList property (elements operand))

/-- Reads a negated membership test. -/
def ofNotInList (value : Json) : Except Fault Condition := do
  let (property, operand) ← namedOperand .notInList value
  .ok (.notInList property (elements operand))

/-- Reads the property of a null check. -/
def ofNullCheck (keyword : Keyword) (check : String → Condition) :
    Json → Except Fault Condition
  | .string property => .ok (check property)
  | v => reject (.propertyNotNamed keyword v.kind)

/-- Reads a comparison. -/
def ofCompare (clause : Clause) (comparison : Comparison) (value : Json) :
    Except Fault Condition := do
  let (property, operand) ← namedOperand (.compare clause comparison) value
  if operand.isComposite then reject (.compositeOperand (.compare clause comparison) property)
  else .ok (.compare clause comparison property operand)

/-! ## Entries -/

mutual

/-- Reads one entry. -/
def ofEntry : EntryKey → Json → Except Fault Condition
  | .position, .object [(text, value)] => ofEntry (.ofText text) value
  | .position, .array [value] => ofEntry .position value
  | .position, .object entries => reject (.entryCount .indexedCondition entries.length)
  | .position, .array items => reject (.entryCount .indexedCondition items.length)
  | .position, v => reject (.entryNotMapping .indexedCondition v.kind)
  | .name text, value =>
    match Keyword.ofKey? text with
    | none => ofBare text value
    | some (.group clause connective) =>
      match value with
      | .object entries => (ofEntries entries).map (.group clause connective)
      | .array items => (ofItems items).map (.group clause connective)
      | v => reject (.groupNotMapping (.group clause connective) v.kind)
    | some .like => ofLike value
    | some .inList => ofInList value
    | some .notInList => ofNotInList value
    | some .isNull => ofNullCheck .isNull .isNull value
    | some .isNotNull => ofNullCheck .isNotNull .isNotNull value
    | some (.compare clause comparison) => ofCompare clause comparison value

/-- Reads the entries of a mapping in order. -/
def ofEntries : List (String × Json) → Except Fault (List Condition)
  | [] => .ok []
  | (text, value) :: rest => do
    let c ← ofEntry (.ofText text) value
    let cs ← ofEntries rest
    .ok (c :: cs)

/-- Reads the items of an array in order. -/
def ofItems : List Json → Except Fault (List Condition)
  | [] => .ok []
  | value :: rest => do
    let c ← ofEntry .position value
    let cs ← ofItems rest
    .ok (c :: cs)

end

/-- Reads a search: the entries of a mapping, or the items of an array. -/
def ofJson : Json → Except Fault (List Condition)
  | .object entries => ofEntries entries
  | .array items => ofItems items
  | v => reject (.conditionsNotMapping v.kind)

end Condition

end Criteria
