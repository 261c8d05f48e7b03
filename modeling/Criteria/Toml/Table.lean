import Criteria.Toml.Token

/-!
# `Criteria.Toml.Table` — nested tables

Tables are nested, and a dotted path leads from a table to one of its parts. A name is never defined
twice.

## Contents
- **Changes.** `Toml.update` changes the table at a path.
- **Entries.** `Toml.defineAt` adds an entry, `Toml.appendTable` a further table of a list.
-/

namespace Criteria.Toml

/-- Entries by key. -/
abbrev Table := List (String × Json)

/-- Changes the table at a path. Missing tables on the way are made, and a list of tables is entered
    at its last table. -/
def update (change : Table → Option Table) : Path → Table → Option Table
  | [], t => change t
  | name :: path, t =>
    match t.lookup name with
    | none => (update change path []).map fun sub => Json.putEntry name (.object sub) t
    | some (.object sub) =>
      (update change path sub).map fun sub => Json.putEntry name (.object sub) t
    | some (.array items) =>
      match items.getLast? with
      | some (.object sub) =>
        (update change path sub).map fun sub =>
          Json.putEntry name (.array (items.dropLast ++ [.object sub])) t
      | _ => none
    | some _ => none

/-- Adds an entry under a name that is still free. -/
def define (name : String) (value : Json) (t : Table) : Option Table :=
  if (t.lookup name).isSome then none else some (Json.putEntry name value t)

/-- Adds an entry at a path, in a table. -/
def defineAt (path : Path) (value : Json) (t : Table) : Option Table :=
  path.getLast?.bind fun name => update (define name value) path.dropLast t

/-- Appends an empty table to the list under a name. -/
def appendTable (name : String) (t : Table) : Option Table :=
  match t.lookup name with
  | none => some (Json.putEntry name (.array [.object []]) t)
  | some (.array items) => some (Json.putEntry name (.array (items ++ [.object []])) t)
  | some _ => none

end Criteria.Toml
