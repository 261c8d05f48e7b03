import Criteria.Fault

/-!
# `Criteria.Extras` — select lists, joins and groupings

## Contents
- **Extras.** `SelectItem` and `Extras`.
- **JSON.** `Extras.ofJson` reads the sections in their order; a section that comes twice counts the
  last time.
- **Wire form.** `Extras.toJson` writes extras so that they can be read back, where that is possible.
-/

namespace Criteria

/-- An item of a select list. -/
inductive SelectItem where
  | raw (text : String)
  | aliased (expression name : String)
  | joined (name : String)
  deriving DecidableEq, Repr

/-- How the item is called in the rest of the query. -/
def SelectItem.name : SelectItem → String
  | .raw text => text
  | .aliased _ name => name
  | .joined name => name

/-- What a query selects, joins and groups by. -/
structure Extras where
  /-- The select list; when absent, the root entity is selected. -/
  selects : Option (List SelectItem)
  /-- Associations beside their aliases, joined also without a partner. -/
  leftJoins : List (String × String)
  /-- Associations beside their aliases, joined only with a partner. -/
  innerJoins : List (String × String)
  groupBys : List String
  deriving DecidableEq, Repr

namespace Extras

/-- No extras. -/
def none : Extras := ⟨.none, [], [], []⟩

/-- Whether nothing is asked for. -/
def isEmpty (e : Extras) : Bool :=
  e.selects.isNone && e.leftJoins.isEmpty && e.innerJoins.isEmpty && e.groupBys.isEmpty

/-- Whether a name stands in the select list. Such a name is not resolved in groupings. -/
def isSelected (e : Extras) (name : String) : Bool :=
  (e.selects.getD []).any fun item => item.name = name

/-! ## JSON -/

/-- The key under which a select list names joined aliases. -/
def joinedKey : String := "__SELECT_JOIN__"

/-- Reads a string. -/
def textOf (item : ExtraItem) : Json → Except Fault String
  | .string s => .ok s
  | _ => .error (.specification (.extraNotText item))

/-- The values that stand for joined aliases: the items of an array, or one value. -/
def joinedValues : Json → List Json
  | .array items => items
  | single => [single]

/-- Reads an entry of a select list. -/
def selectEntry (e : String × Json) : Except Fault (List SelectItem) :=
  if e.1 = joinedKey then
    (joinedValues e.2).mapM fun v => (textOf .joinedSelect v).map .joined
  else if Json.isPositional e.1 then (textOf .selectItem e.2).map fun s => [.raw s]
  else (textOf .selectAlias e.2).map fun s => [.aliased e.1 s]

/-- Reads a select list. -/
def selectsOf : Json → Except Fault (List SelectItem)
  | .array items => items.mapM fun v => (textOf .selectItem v).map .raw
  | .object entries => (entries.mapM selectEntry).map List.flatten
  | _ => .error (.specification .selectsShape)

/-- Reads joins. -/
def joinsOf (kind : JoinKind) : Json → Except Fault (List (String × String))
  | .object entries => entries.mapM fun e => (textOf .joinAlias e.2).map fun name => (e.1, name)
  | _ => .error (.specification (.joinsShape kind))

/-- Reads groupings. -/
def groupBysOf : Json → Except Fault (List String)
  | .array items => items.mapM (textOf .groupBy)
  | .object entries => entries.mapM fun e => textOf .groupBy e.2
  | _ => .error (.specification .groupBysShape)

/-- Reads a section. -/
def readSection (extras : Extras) (e : String × Json) : Except Fault Extras :=
  match e.1 with
  | "selects" => (selectsOf e.2).map fun items => { extras with selects := some items }
  | "leftJoins" => (joinsOf .left e.2).map fun joins => { extras with leftJoins := joins }
  | "innerJoins" => (joinsOf .inner e.2).map fun joins => { extras with innerJoins := joins }
  | "groupBys" => (groupBysOf e.2).map fun names => { extras with groupBys := names }
  | key => .error (.specification (.unknownExtra key))

/-- Reads extras; null is no extras. -/
def ofJson : Json → Except Fault Extras
  | .null => .ok none
  | .object entries => entries.foldlM readSection none
  | _ => .error (.specification .extrasShape)

/-! ## Wire form -/

/-- The entries of a select list. Raw items are keyed by their position, aliased items by their
    expression, and a run of joined items stands as one list under its reserved key. -/
def selectEntries : Nat → List SelectItem → List (String × Json)
  | _, [] => []
  | n, .raw text :: rest => (toString n, .string text) :: selectEntries (n + 1) rest
  | n, .aliased expression name :: rest =>
    (expression, .string name) :: selectEntries (n + 1) rest
  | n, .joined name :: rest =>
    match selectEntries (n + 1) rest with
    | (key, .array names) :: entries =>
      if key = joinedKey then (joinedKey, .array (.string name :: names)) :: entries
      else (joinedKey, .array [.string name]) :: (key, .array names) :: entries
    | entries => (joinedKey, .array [.string name]) :: entries

/-- The mapping of joins. -/
def joinEntries (joins : List (String × String)) : Json :=
  .object (joins.map fun j => (j.1, .string j.2))

/-- The JSON form of extras. -/
def toJson (e : Extras) : Json :=
  .object ((e.selects.elim [] fun items => [("selects", .object (selectEntries 0 items))]) ++
    [("leftJoins", joinEntries e.leftJoins), ("innerJoins", joinEntries e.innerJoins),
     ("groupBys", .array (e.groupBys.map .string))])

end Extras

end Criteria
