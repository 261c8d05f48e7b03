import Criteria.Fault

/-!
# `Criteria.Naming` — fresh parameter names

Names are a stem, an underscore and the value of a counter. The counter is a 64-bit word and wraps.

## Contents
- **Supplies.** `NameSupply` is a stem beside its counter.
- **Naming.** `Naming` is a computation that draws names and may fail; a failure keeps the names
  drawn so far (`Naming.runOn_bind`).
- **Binding.** `Bindings` is the table of parameters of a query. `Binder` draws names for values and
  records them.
-/

namespace Criteria

/-- A source of fresh parameter names. -/
structure NameSupply where
  stem : String
  next : UInt64
  deriving DecidableEq, Repr

namespace NameSupply

/-- The stem of parameter names unless settings give another. -/
def defaultStem : String := "param"

/-- The supply that starts at one. -/
def ofStem (stem : String) : NameSupply := ⟨stem, 1⟩

/-- The name that carries an index. -/
def nameAt (stem : String) (index : UInt64) : String := stem ++ "_" ++ toString index.toNat

/-- The name that is drawn next. -/
def name (s : NameSupply) : String := nameAt s.stem s.next

/-- The supply after one name is drawn. -/
def advance (s : NameSupply) : NameSupply := { s with next := s.next + 1 }

end NameSupply

/-- A computation that draws parameter names and may fail. Names drawn before a failure stay drawn. -/
abbrev Naming (α : Type) := ExceptT Fault (StateM NameSupply) α

/-- Runs a computation on a supply. -/
def Naming.runOn {α : Type} (x : Naming α) (s : NameSupply) : Except Fault α × NameSupply :=
  (ExceptT.run x).run s

namespace Naming

variable {α β : Type}

/-- Computations are the same when they run alike on every supply. -/
theorem ext {x y : Naming α} (h : ∀ s, runOn x s = runOn y s) : x = y := funext h

/-- A plain value draws no name. -/
@[simp] theorem runOn_pure (a : α) (s : NameSupply) : runOn (pure a) s = (.ok a, s) := rfl

/-- A failure draws no name by itself. -/
@[simp] theorem runOn_throw (fault : Fault) (s : NameSupply) :
    runOn (throw fault : Naming α) s = (.error fault, s) := rfl

/-- The second computation runs on the supply that the first leaves, unless the first fails. -/
theorem runOn_bind (x : Naming α) (next : α → Naming β) (s : NameSupply) :
    runOn (x >>= next) s = match runOn x s with
      | (.ok a, s) => runOn (next a) s
      | (.error fault, s) => (.error fault, s) := by
  simp only [runOn, ExceptT.run_bind, StateT.run_bind]
  rcases (ExceptT.run x).run s with ⟨_ | _, _⟩ <;> rfl

/-- Two computations in a row succeed only when the first does, and the second after it. -/
theorem bind_ok {x : Naming α} {next : α → Naming β} {s s' : NameSupply} {b : β}
    (h : runOn (x >>= next) s = (.ok b, s')) :
    ∃ a t, runOn x s = (.ok a, t) ∧ runOn (next a) t = (.ok b, s') := by
  rw [runOn_bind] at h
  split at h
  · exact ⟨_, _, ‹_›, h⟩
  · exact absurd (congrArg Prod.fst h) (by simp)

end Naming

/-! ## Binding -/

/-- The parameters of a query: names beside their values, in order of first binding. -/
abbrev Bindings := OrderedMap String Json

/-- A supply beside the values that have been bound under its names. -/
structure Binder where
  supply : NameSupply
  bindings : Bindings

/-- The binder that has bound nothing. -/
def Binder.start (supply : NameSupply) : Binder := ⟨supply, .empty⟩

/-- Binds a value under the next name. -/
def Binder.bind (b : Binder) (value : Json) : String × Binder :=
  (b.supply.name, ⟨b.supply.advance, b.bindings.set b.supply.name value⟩)

end Criteria
