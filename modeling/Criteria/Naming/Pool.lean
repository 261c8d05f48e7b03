import Criteria.Naming

/-!
# `Criteria.Naming.Pool` — name supplies that share counters

Several supplies and binders may be in use at once. A supply and its clones draw from one counter,
so that their names never repeat each other; supplies made separately count separately.

## Contents
- **State.** `Pool` holds the counters, the supplies (`Handle`) and the binders.
- **Steps.** `Pool.step` performs one `Pool.Action` and gives its `Pool.Outcome`.
-/

namespace Criteria

namespace Pool

/-- A supply of a pool: its stem, and the place of the counter it draws from. -/
structure Handle where
  stem : String
  counter : Nat
  deriving DecidableEq, Repr

/-- A binder of a pool: the supply it draws from, and its table until that is taken out. -/
structure OpenBinder where
  handle : Handle
  bindings : Option Bindings
  deriving DecidableEq, Repr

end Pool

/-- Counters, supplies and binders that are in use together. -/
structure Pool where
  counters : List UInt64
  handles : List Pool.Handle
  binders : List Pool.OpenBinder
  deriving DecidableEq, Repr

namespace Pool

/-- The pool in which nothing is in use. -/
def empty : Pool := ⟨[], [], []⟩

/-- What a supply draws from at the moment. -/
def supply (p : Pool) (h : Handle) : NameSupply := ⟨h.stem, p.counters.getD h.counter 1⟩

/-- Draws a name from a supply. -/
def draw (p : Pool) (h : Handle) : String × Pool :=
  let s := p.supply h
  (s.name, { p with counters := p.counters.set h.counter s.advance.next })

/-- An action on a pool. Supplies and binders are named by their places. -/
inductive Action where
  /-- Make a supply with a counter of its own. -/
  | create (stem : String)
  /-- Make a supply that shares the counter of another. -/
  | clone (supply : Nat)
  | draw (supply : Nat)
  | peek (supply : Nat)
  /-- Make a binder on a supply. -/
  | binder (supply : Nat)
  | bind (binder : Nat) (value : Json)
  /-- Take the table out of a binder. -/
  | take (binder : Nat)

/-- What an action gives. -/
inductive Outcome where
  | place (index : Nat)
  | name (text : String)
  | state (supply : NameSupply)
  | bound (name : String) (bindings : Bindings)
  | table (bindings : Bindings)
  /-- The supply or binder does not exist, or the binder has no table any more. -/
  | nothing

/-- Adds a supply. -/
def addHandle (p : Pool) (h : Handle) : Outcome × Pool :=
  (.place p.handles.length, { p with handles := p.handles ++ [h] })

/-- Binds a value through a binder. -/
def bindAt (p : Pool) (i : Nat) (value : Json) : Outcome × Pool :=
  match p.binders[i]? with
  | some ⟨h, some bindings⟩ =>
    let (name, p) := p.draw h
    let bindings := bindings.set name value
    (.bound name bindings, { p with binders := p.binders.set i ⟨h, some bindings⟩ })
  | _ => (.nothing, p)

/-- Takes the table out of a binder. -/
def takeAt (p : Pool) (i : Nat) : Outcome × Pool :=
  match p.binders[i]? with
  | some ⟨h, some bindings⟩ => (.table bindings, { p with binders := p.binders.set i ⟨h, none⟩ })
  | _ => (.nothing, p)

/-- Performs one action. -/
def step (p : Pool) : Action → Outcome × Pool
  | .create stem => { p with counters := p.counters ++ [1] }.addHandle ⟨stem, p.counters.length⟩
  | .clone i => (p.handles[i]?).elim (.nothing, p) p.addHandle
  | .draw i => (p.handles[i]?).elim (.nothing, p) fun h =>
    let (name, p) := p.draw h
    (.name name, p)
  | .peek i => ((p.handles[i]?).elim .nothing fun h => .state (p.supply h), p)
  | .binder i => (p.handles[i]?).elim (.nothing, p) fun h =>
    (.place p.binders.length, { p with binders := p.binders ++ [⟨h, some .empty⟩] })
  | .bind i value => p.bindAt i value
  | .take i => p.takeAt i

end Pool

end Criteria
