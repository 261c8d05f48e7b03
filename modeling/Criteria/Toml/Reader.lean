import Criteria.Toml.Table

/-!
# `Criteria.Toml.Reader` — documents from configuration text

A document is a list of lines: `key = value`, a table header `[name]`, or the header `[[name]]` of a
further table in a list. Arrays may span lines, inline tables may not. A document is read into the
entries of a JSON object, by one pass over its tokens with a stack of unfinished values.

## Contents
- **State.** `Frame` is an unfinished array or inline table, `Expect` says what may come next.
- **Steps.** `Reading.step` consumes one token.
- **Documents.** `Toml.parse?`.
-/

namespace Criteria.Toml

/-- An array or inline table that is not closed yet. -/
inductive Frame where
  | array (reversed : List Json)
  | table (entries : Table) (key : Path)

/-- What may come next. -/
inductive Expect where
  | line
  | header
  | headerClose (path : Path)
  | listHeader
  | listClose (path : Path)
  | listCloseAgain (path : Path)
  | lineEquals (key : Path)
  | value (key : Path)
  | itemOrClose (key : Path)
  | commaOrClose (key : Path)
  | inlineKeyOrClose (key : Path)
  | inlineKey (key : Path)
  | inlineEquals (key : Path)
  | lineEnd

/-- The state of reading. -/
structure Reading where
  /-- The entries of the document so far. -/
  root : Table
  /-- The path of the current table. -/
  table : Path
  /-- The paths of the tables and values that may not be opened as tables again. -/
  closed : List Path
  /-- The paths of the lists of tables. -/
  lists : List Path
  /-- The open arrays and inline tables, innermost first. -/
  stack : List Frame
  expect : Expect

/-- The state before the first line. -/
def Reading.start : Reading := ⟨[], [], [], [], [], .line⟩

/-- Opens a table by its header. -/
def Reading.openTable (s : Reading) (path : Path) : Option Reading :=
  if path ∈ s.closed ∨ path ∈ s.lists then none
  else (update some path s.root).map fun root =>
    { s with root, table := path, closed := path :: s.closed, expect := .lineEnd }

/-- Opens a further table of a list by its header. -/
def Reading.openListTable (s : Reading) (path : Path) : Option Reading := do
  let name ← path.getLast?
  let known := path ∈ s.lists
  if path ∈ s.closed then none
  else
    let root ← update
      (fun t => if known || (t.lookup name).isNone then appendTable name t else none)
      path.dropLast s.root
    some { s with root, table := path,
                  closed := s.closed.filter (fun p => !path.isPrefixOf p),
                  lists := if known then s.lists else path :: s.lists, expect := .lineEnd }

/-- Places a finished value into the innermost open composite, or into the current table. -/
def Reading.put (s : Reading) (stack : List Frame) (key : Path) (v : Json) : Option Reading :=
  match stack with
  | [] =>
    (update (defineAt key v) s.table s.root).map fun root =>
      { s with root, stack := [], closed := (s.table ++ key) :: s.closed, expect := .lineEnd }
  | .array items :: rest =>
    some { s with stack := .array (v :: items) :: rest, expect := .commaOrClose key }
  | .table entries name :: rest =>
    (defineAt name v entries).map fun entries =>
      { s with stack := .table entries name :: rest, expect := .commaOrClose key }

/-- Consumes the first token of a value. -/
def Reading.beginValue (s : Reading) (key : Path) : Token → Option Reading
  | .text value => s.put s.stack key (.string value)
  | .bare run => (bareValue? run).bind (s.put s.stack key)
  | .openBracket => some { s with stack := .array [] :: s.stack, expect := .itemOrClose key }
  | .openBrace => some { s with stack := .table [] [] :: s.stack, expect := .inlineKeyOrClose key }
  | _ => none

/-- Consumes a closing token. -/
def Reading.close (s : Reading) (key : Path) (t : Token) : Option Reading :=
  match s.stack, t with
  | .array items :: rest, .closeBracket => s.put rest key (.array items.reverse)
  | .table entries _ :: rest, .closeBrace => s.put rest key (.object entries)
  | _, _ => none

/-- Consumes a key of the innermost inline table. -/
def Reading.beginEntry (s : Reading) (key : Path) (t : Token) : Option Reading :=
  match s.stack, key? t with
  | .table entries _ :: rest, some name =>
    some { s with stack := .table entries name :: rest, expect := .inlineEquals key }
  | _, _ => none

/-- Whether the innermost open composite is an array. -/
def Reading.inArray (s : Reading) : Bool :=
  match s.stack with
  | .array _ :: _ => true
  | _ => false

/-- Consumes one token. -/
def Reading.step (s : Reading) (t : Token) : Option Reading :=
  match s.expect with
  | .line =>
    match t with
    | .newline => some s
    | .openBracket => some { s with expect := .header }
    | t => (key? t).map fun key => { s with expect := .lineEquals key }
  | .header =>
    if t = .openBracket then some { s with expect := .listHeader }
    else (key? t).map fun path => { s with expect := .headerClose path }
  | .headerClose path => if t = .closeBracket then s.openTable path else none
  | .listHeader => (key? t).map fun path => { s with expect := .listClose path }
  | .listClose path =>
    if t = .closeBracket then some { s with expect := .listCloseAgain path } else none
  | .listCloseAgain path => if t = .closeBracket then s.openListTable path else none
  | .lineEquals key => if t = .equals then some { s with expect := .value key } else none
  | .value key => if t = .newline ∧ s.inArray then some s else s.beginValue key t
  | .itemOrClose key =>
    if t = .newline then some s
    else if t = .closeBracket then s.close key t
    else s.beginValue key t
  | .commaOrClose key =>
    if t = .newline ∧ s.inArray then some s
    else if t = .comma then
      some { s with expect := if s.inArray then .itemOrClose key else .inlineKey key }
    else s.close key t
  | .inlineKeyOrClose key => if t = .closeBrace then s.close key t else s.beginEntry key t
  | .inlineKey key => s.beginEntry key t
  | .inlineEquals key => if t = .equals then some { s with expect := .value key } else none
  | .lineEnd => if t = .newline then some { s with expect := .line } else none

/-- Reads a document. -/
def parse? (text : String) : Option Table := do
  let tokens ← tokens? (withoutMark text.toList)
  let final ← (tokens ++ [Token.newline]).foldlM Reading.step .start
  match final.expect with
  | .line => some final.root
  | _ => none

end Criteria.Toml
