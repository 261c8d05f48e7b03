import Criteria.Character
import Criteria.Json.Token

/-!
# `Criteria.Settings.Place` — where in a table a key points

A key names an entry of a table, or leads on from there to a part of the entry: `.name` goes to an
entry of a mapping, `[n]` to a position of a list, counted from the end if `n` is negative. A key
without this form names the entry of its whole text.

## Contents
- **Places.** `Table`, `Step`, `Place` and `Place.ofKey`.
- **Writing.** `placed` writes into a value, `Place.put` into the entries of a table.
-/

namespace Criteria.Settings

/-- Values by key. -/
abbrev Table := List (String × Json)

/-- A step from a value to one of its parts. -/
inductive Step where
  | name (key : String)
  | position (index : Int)
  deriving DecidableEq, Repr

/-- The name of an entry, and the steps from there. -/
structure Place where
  name : String
  steps : List Step
  deriving DecidableEq, Repr

/-! ## Keys -/

/-- What is being read of a key. -/
inductive PlaceMode where
  | name (reversed : List Char)
  | position (reversed : List Char)
  | closed

/-- What has been read of a key: the finished steps, last first. -/
structure PlaceScan where
  mode : PlaceMode
  reversed : List Step

/-- Characters of names. -/
def isNameChar (c : Char) : Bool := c.isAlphanum || c = '_' || c = '-' || c = ' '

/-- Reads the number of a position, which has 64 signed bits. Spaces and tabs may surround it. -/
def position? (cs : List Char) : Option Int :=
  let (negative, digits) := match stripped (fun c => c = ' ' || c = '\t') cs with
    | '-' :: rest => (true, rest)
    | rest => (false, rest)
  let value : Int := if negative then -(Json.digitsValue digits : Int) else Json.digitsValue digits
  if digits ≠ [] ∧ digits.all Char.isDigit ∧ Json.fitsSigned value then some value else none

/-- Begins the next step after a finished one. -/
def PlaceScan.next (done : List Step) (c : Char) : Option PlaceScan :=
  if c = '.' then some ⟨.name [], done⟩
  else if c = '[' then some ⟨.position [], done⟩
  else none

/-- Consumes one character. -/
def PlaceScan.step (s : PlaceScan) (c : Char) : Option PlaceScan :=
  match s.mode with
  | .name read =>
    if isNameChar c then some ⟨.name (c :: read), s.reversed⟩
    else if read = [] then none
    else PlaceScan.next (.name (String.ofList read.reverse) :: s.reversed) c
  | .position read =>
    if c = ']' then
      (position? read.reverse).map fun i => ⟨.closed, .position i :: s.reversed⟩
    else some ⟨.position (c :: read), s.reversed⟩
  | .closed => PlaceScan.next s.reversed c

/-- Ends at the end of the key. -/
def PlaceScan.finish (s : PlaceScan) : Option (List Step) :=
  match s.mode with
  | .name [] => none
  | .name read => some (.name (String.ofList read.reverse) :: s.reversed).reverse
  | .position _ => none
  | .closed => some s.reversed.reverse

/-- The steps that a key writes out. -/
def steps? (key : String) : Option (List Step) :=
  (key.toList.foldlM PlaceScan.step ⟨.name [], []⟩).bind PlaceScan.finish

/-- The place of a key. -/
def Place.ofKey (key : String) : Place :=
  match steps? key with
  | some (.name name :: steps) => ⟨name, steps⟩
  | _ => ⟨key, []⟩

/-! ## Writing -/

/-- The entries of a mapping; any other value has none. -/
def entriesOf : Json → Table
  | .object entries => entries
  | _ => []

/-- The items of a list; any other value has none. -/
def itemsOf : Json → List Json
  | .array items => items
  | _ => []

/-- The place of a position in a list of some length. -/
def offsetIn (length : Nat) (index : Int) : Nat :=
  (if index < 0 then length + index else index).toNat

/-- Replaces the item at a position; a list that is too short is first filled up with null. -/
def setItem (items : List Json) (i : Nat) (v : Json) : List Json :=
  (items ++ List.replicate (i + 1 - items.length) Json.null).set i v

/-- A value with another one written at the end of some steps. What stands in the way of a step is
    replaced. -/
def placed (v : Json) : List Step → Json → Json
  | [], _ => v
  | .name key :: steps, old =>
    let entries := entriesOf old
    .object (Json.putEntry key (placed v steps ((entries.lookup key).getD .null)) entries)
  | .position index :: steps, old =>
    let items := itemsOf old
    let i := offsetIn items.length index
    .array (setItem items i (placed v steps (items.getD i .null)))

/-- Writes a value into the entries of a table. -/
def Place.put (p : Place) (v : Json) (table : Table) : Table :=
  Json.putEntry p.name (placed v p.steps ((table.lookup p.name).getD .null)) table

end Criteria.Settings
