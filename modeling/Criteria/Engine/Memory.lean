import Criteria.Engine

/-!
# `Criteria.Engine.Memory` — an engine that keeps its rows in memory

The engine answers every query with its rows, cut to the window of the query. Failures can be armed
for the calls of a kind, to be raised after a number of such calls.

## Contents
- **Rows.** `Row` is a labelled record of any type.
- **State.** `Memory` holds rows, scheduled changes and armed failures.
- **Calls.** `Memory.engine`.
-/

namespace Criteria

/-- A labelled record. -/
structure Row where
  label : String
  type : EntityType
  identifiers : List (String × Identifier)
  deriving DecidableEq, Repr

instance : Record Row where
  type r := r.type
  identifier? r field := r.identifiers.lookup field

/-- The kinds of call. -/
inductive CallKind where
  | results
  | atMostOne
  | scalar
  | find
  | persist
  | remove
  | detach
  | flush
  | clear
  | execute
  deriving DecidableEq, Repr

/-- The kind of a call. -/
def Call.kind {ρ : Type} : Call ρ → CallKind
  | .results _ => .results
  | .atMostOne _ => .atMostOne
  | .scalar _ => .scalar
  | .find _ _ => .find
  | .persist _ => .persist
  | .remove _ => .remove
  | .detach _ => .detach
  | .flush => .flush
  | .clear _ => .clear
  | .execute _ => .execute

/-- A failure to be raised once some calls of its kind have been let through. -/
structure Trap where
  kind : CallKind
  after : Nat
  fault : Fault
  deriving DecidableEq, Repr

/-- The state of the engine. -/
structure Memory where
  rows : List Row
  persists : List Row
  removals : List Row
  /-- The answer to queries for a scalar; when absent, the number of rows. -/
  scalar : Option Json
  traps : List Trap

namespace Memory

/-- The engine state with rows and nothing scheduled. -/
def ofRows (rows : List Row) : Memory := ⟨rows, [], [], none, []⟩

/-- Springs the first trap of a kind, or brings it one call nearer. -/
def spring (kind : CallKind) : List Trap → Option Fault × List Trap
  | [] => (none, [])
  | t :: ts =>
    if t.kind = kind then
      match t.after with
      | 0 => (some t.fault, ts)
      | n + 1 => (none, { t with after := n } :: ts)
    else
      let (fault, ts) := spring kind ts
      (fault, t :: ts)

/-- The rows inside a window. -/
def windowed (w : Window) (rows : List Row) : List Row :=
  let rest := rows.drop (w.offset.elim 0 UInt64.toNat)
  w.limit.elim rest fun n => rest.take n.toNat

/-- Adds a row unless its label is taken. -/
def insertNew (rows : List Row) (r : Row) : List Row :=
  if rows.any fun s => s.label = r.label then rows else rows ++ [r]

/-- Writes the scheduled changes: new rows first, then removals. -/
def flushed (m : Memory) : Memory :=
  let rows := m.persists.foldl insertNew m.rows
  let rows := rows.filter fun r => !m.removals.any fun s => s.label = r.label
  { m with rows, persists := [], removals := [] }

/-- The row with the value of the only identifier field. -/
def lookup (m : Memory) (schema : Schema) (id : Identifier) : Except Fault (Option Row) := do
  let field ← schema.singleIdentifier
  return m.rows.find? fun r => Record.identifier? r field = some id

/-- Answers a call. -/
def answer (m : Memory) : (c : Call Row) → Except Fault c.Answer × Memory
  | .results q => (.ok (windowed q.window m.rows), m)
  | .atMostOne q => (.ok (windowed q.window m.rows).head?, m)
  | .scalar _ => (.ok (m.scalar.getD (.int m.rows.length)), m)
  | .find schema id => (m.lookup schema id, m)
  | .persist r => (.ok (), { m with persists := m.persists ++ [r] })
  | .remove r => (.ok (), { m with removals := m.removals ++ [r] })
  | .detach _ => (.ok (), m)
  | .flush => (.ok (), m.flushed)
  | .clear _ => (.ok (), m)
  | .execute statement =>
    (.ok 0, if "TRUNCATE".toList.isPrefixOf statement.toList then { m with rows := [] } else m)

/-- The engine. -/
def engine : Engine Row Memory where
  perform c m :=
    match spring c.kind m.traps with
    | (some fault, traps) => (.error fault, { m with traps })
    | (none, traps) => { m with traps }.answer c

end Memory

end Criteria
