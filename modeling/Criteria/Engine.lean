import Criteria.Query
import Criteria.Record

/-!
# `Criteria.Engine` — persistence engines as state machines

An engine executes queries, keeps track of entities until the next flush, and runs maintenance
statements. Nothing is assumed of it: each call may fail, and may change the state all the same.

## Contents
- **Calls.** `Call` lists what can be asked of an engine, `Call.Answer` the type of each answer.
- **Engines.** `Engine` performs calls on a state.
- **Sessions.** `Session` is a computation that draws parameter names and asks an engine. Its
  `World` records every call, also those that fail.
-/

namespace Criteria

/-- A call to a persistence engine. -/
inductive Call (ρ : Type) where
  /-- Every record that meets a query. -/
  | results (query : Query)
  /-- The record that meets a query expected to meet one at most. -/
  | atMostOne (query : Query)
  /-- The one value that a query selects. -/
  | scalar (query : Query)
  /-- The record with an identifier. -/
  | find (schema : Schema) (id : Identifier)
  /-- Schedule a record for insertion or update. -/
  | persist (record : ρ)
  /-- Schedule a record for deletion. -/
  | remove (record : ρ)
  /-- Stop tracking a record. -/
  | detach (record : ρ)
  /-- Write every scheduled change. -/
  | flush
  /-- Stop tracking every record of a type. -/
  | clear (schema : Schema)
  /-- Run a statement and give the number of affected rows. -/
  | execute (statement : String)
  deriving DecidableEq

/-- The type of the answer to a call. -/
abbrev Call.Answer {ρ : Type} : Call ρ → Type
  | .results _ => List ρ
  | .atMostOne _ => Option ρ
  | .scalar _ => Json
  | .find _ _ => Option ρ
  | .persist _ => Unit
  | .remove _ => Unit
  | .detach _ => Unit
  | .flush => Unit
  | .clear _ => Unit
  | .execute _ => UInt64

/-- A persistence engine over records `ρ` with states `σ`. -/
structure Engine (ρ σ : Type) where
  perform : (c : Call ρ) → σ → Except Fault c.Answer × σ

/-! ## Sessions -/

/-- What a session works on: the supply of parameter names, the state of the engine, and the calls
    made so far. -/
structure World (ρ σ : Type) where
  supply : NameSupply
  engine : σ
  calls : List (Call ρ)

/-- A computation in a world. What it did before a failure stays done. -/
abbrev Session (ρ σ α : Type) := ExceptT Fault (StateM (World ρ σ)) α

namespace Session

variable {ρ σ α : Type}

/-- Runs a session in a world. -/
def runIn (x : Session ρ σ α) (w : World ρ σ) : Except Fault α × World ρ σ := (ExceptT.run x).run w

/-- Records a call and makes it. -/
def ask (e : Engine ρ σ) (c : Call ρ) : Session ρ σ c.Answer :=
  ExceptT.mk fun w =>
    let (answer, state) := e.perform c w.engine
    (answer, { w with engine := state, calls := w.calls ++ [c] })

/-- A plain value leaves the world as it is. -/
@[simp] theorem runIn_pure (a : α) (w : World ρ σ) :
    runIn (pure a : Session ρ σ α) w = (.ok a, w) := rfl

/-- The second computation runs in the world that the first leaves, unless the first fails. -/
theorem runIn_bind {β : Type} (x : Session ρ σ α) (next : α → Session ρ σ β) (w : World ρ σ) :
    runIn (x >>= next) w = match runIn x w with
      | (.ok a, w) => runIn (next a) w
      | (.error fault, w) => (.error fault, w) := by
  simp only [runIn, ExceptT.run_bind, StateT.run_bind]
  rcases (ExceptT.run x).run w with ⟨_ | _, _⟩ <;> rfl

/-- A call is recorded whether it succeeds or fails. -/
theorem runIn_ask (e : Engine ρ σ) (c : Call ρ) (w : World ρ σ) :
    runIn (ask e c) w =
      ((e.perform c w.engine).1,
        { w with engine := (e.perform c w.engine).2, calls := w.calls ++ [c] }) := rfl

/-- Draws parameter names in a session. -/
def naming (x : Naming α) : Session ρ σ α :=
  ExceptT.mk fun w =>
    let (result, supply) := x.runOn w.supply
    (result, { w with supply })

/-- Drawing names changes nothing but the supply. -/
theorem runIn_naming (x : Naming α) (w : World ρ σ) :
    runIn (naming x : Session ρ σ α) w =
      ((x.runOn w.supply).1, { w with supply := (x.runOn w.supply).2 }) := rfl

/-- Fails with the failure of a computation without effects. -/
def checked (x : Except Fault α) : Session ρ σ α := ExceptT.mk fun w => (x, w)

/-- A check leaves the world as it is. -/
@[simp] theorem runIn_checked (x : Except Fault α) (w : World ρ σ) :
    runIn (checked x : Session ρ σ α) w = (x, w) := rfl

/-- A check of a result leaves the world as the result left it. -/
theorem runIn_bind_checked {β : Type} {x : Session ρ σ α} {w w' : World ρ σ} {result : Except Fault α}
    (h : runIn x w = (result, w')) (test : α → Except Fault β) :
    runIn (x >>= fun v => checked (test v)) w = (result.bind test, w') := by
  rw [runIn_bind, h]
  cases result <;> rfl

end Session

end Criteria
