import Criteria.Engine
import Criteria.Query.Assembly

/-!
# `Criteria.Facade` — reading and writing the entities of one type

A facade assembles queries, has an engine execute them, and checks that every record that comes
back is of its type. Writes are forwarded one by one and stop at the first failure.

## Contents
- **Reading.** `findBy`, `findOneBy`, `findOneById`, `count` and their relatives; the keyed forms
  index the records by identifier.
- **Writing.** `persistMany` and `removeMany` schedule, `saveMany` and `deleteMany` also flush.
- **Maintenance.** `truncate` and the auto-increment statements.
-/

namespace Criteria

/-- Access to the entities of one type through an engine. -/
structure Facade (ρ σ : Type) where
  engine : Engine ρ σ
  type : EntityType
  scope : Scope
  /-- The order of results when a search gives none. -/
  defaultOrder : SortOrder

namespace Facade

open Session

variable {ρ σ : Type} [Record ρ]

/-- A search for entities. -/
structure Search where
  conditions : List Condition
  /-- The order of results; when absent, the default order of the facade. -/
  order : Option SortOrder
  limit : Option UInt64
  offset : Option UInt64
  extras : Extras

/-- The search for every entity. -/
def Search.all (order : Option SortOrder) : Search := ⟨[], order, none, none, .none⟩

/-- The conditions under which every property matches its pattern. -/
def likeConditions (patterns : List (String × String)) : List Condition :=
  if patterns.isEmpty then []
  else [.group .restriction .and (patterns.map fun p => .like p.1 (.string p.2))]

/-- The search for the entities whose properties match patterns. -/
def Search.like (patterns : List (String × String)) (order : Option SortOrder)
    (limit offset : Option UInt64) : Search :=
  ⟨likeConditions patterns, order, limit, offset, .none⟩

/-- The request of a search. -/
def request (f : Facade ρ σ) (s : Search) : FindRequest :=
  ⟨s.conditions, s.order.getD f.defaultOrder, s.limit, s.offset, s.extras⟩

/-! ## Reading -/

/-- The records that meet a search, of whatever type. -/
def records (f : Facade ρ σ) (s : Search) : Session ρ σ (List ρ) := do
  let q ← naming (f.scope.find (f.request s))
  ask f.engine (.results q)

omit [Record ρ] in
/-- A search whose query can be assembled is one call. -/
theorem runIn_records (f : Facade ρ σ) {s : Search} {w : World ρ σ} {q : Query} {supply : NameSupply}
    (h : (f.scope.find (f.request s)).runOn w.supply = (.ok q, supply)) :
    (f.records s).runIn w = ((f.engine.perform (.results q) w.engine).1,
      ⟨supply, (f.engine.perform (.results q) w.engine).2, w.calls ++ [.results q]⟩) := by
  rw [records, runIn_bind, runIn_naming, h]
  rfl

/-- The entities that meet a search. -/
def findBy (f : Facade ρ σ) (s : Search) : Session ρ σ (List ρ) := do
  let rs ← f.records s
  checked (rs.mapM (ofType f.type))

/-- The entities whose properties match patterns. -/
def findLikeBy (f : Facade ρ σ) (patterns : List (String × String)) (order : Option SortOrder)
    (limit offset : Option UInt64) : Session ρ σ (List ρ) :=
  f.findBy (.like patterns order limit offset)

/-- Checks the type of a record that may be absent. -/
def checkOne (f : Facade ρ σ) : Option ρ → Session ρ σ (Option ρ)
  | some r => checked ((ofType f.type r).map some)
  | none => pure none

/-- The first entity that meets conditions. -/
def findOneBy (f : Facade ρ σ) (conditions : List Condition) (order : Option SortOrder)
    (extras : Extras) : Session ρ σ (Option ρ) := do
  let q ← naming (f.scope.find (f.request ⟨conditions, order, some 1, none, extras⟩))
  let r ← ask f.engine (.atMostOne q)
  f.checkOne r

/-- The entity with an identifier. With extras this is a query, without them a look-up. -/
def findOneById (f : Facade ρ σ) (id : Identifier) (extras : Extras) :
    Session ρ σ (Option ρ) := do
  if extras.isEmpty then
    let r ← ask f.engine (.find f.scope.schema id)
    f.checkOne r
  else
    let field ← checked f.scope.schema.singleIdentifier
    let q ← naming (f.scope.find ⟨[.bare field id.toJson], [], none, none, extras⟩)
    let r ← ask f.engine (.atMostOne q)
    f.checkOne r

/-- Every entity. -/
def findAll (f : Facade ρ σ) (order : Option SortOrder) : Session ρ σ (List ρ) :=
  f.findBy (.all order)

/-- Indexes records by their only identifier. -/
def keyed (f : Facade ρ σ) (rs : List ρ) : Except Fault (Keyed ρ) :=
  keyById f.type f.scope.schema rs

/-- The entities that meet a search, by identifier. -/
def findByKeyed (f : Facade ρ σ) (s : Search) : Session ρ σ (Keyed ρ) := do
  let rs ← f.records s
  checked (f.keyed rs)

/-- The entities whose properties match patterns, by identifier. -/
def findLikeByKeyed (f : Facade ρ σ) (patterns : List (String × String))
    (order : Option SortOrder) (limit offset : Option UInt64) : Session ρ σ (Keyed ρ) :=
  f.findByKeyed (.like patterns order limit offset)

/-- Every entity, by identifier. -/
def findAllKeyed (f : Facade ρ σ) (order : Option SortOrder) : Session ρ σ (Keyed ρ) :=
  f.findByKeyed (.all order)

/-- The number that a scalar answer gives. -/
def countOf (f : Facade ρ σ) (value : Json) : Except Fault UInt64 :=
  match value.unsigned? with
  | some n => .ok n
  | none => .error (.nonIntegerCount f.scope.schema.name value)

/-- The number of entities that meet conditions. -/
def count (f : Facade ρ σ) (conditions : List Condition) : Session ρ σ UInt64 := do
  let q ← naming (f.scope.count conditions)
  let value ← ask f.engine (.scalar q)
  checked (f.countOf value)

/-- Whether an entity has a value for every identifier field. -/
def isIdentified (f : Facade ρ σ) (r : ρ) : Except Fault Bool := do
  let r ← ofType f.type r
  hasValues f.scope.schema r f.scope.schema.identifiers

/-! ## Writing -/

/-- Makes calls in order. -/
def askAll (f : Facade ρ σ) (call : ρ → Session ρ σ Unit) : List ρ → Session ρ σ Unit
  | [] => pure ()
  | r :: rs => do
    call r
    f.askAll call rs

/-- Writes every scheduled change. -/
def flush (f : Facade ρ σ) : Session ρ σ Unit := ask f.engine .flush

/-- Schedules entities for insertion or update. -/
def persistMany (f : Facade ρ σ) (rs : List ρ) : Session ρ σ Unit :=
  f.askAll (fun r => ask f.engine (.persist r)) rs

/-- Schedules an entity for insertion or update. -/
def persist (f : Facade ρ σ) (r : ρ) : Session ρ σ Unit := f.persistMany [r]

/-- Inserts or updates entities. -/
def saveMany (f : Facade ρ σ) (rs : List ρ) : Session ρ σ Unit := do
  f.persistMany rs
  f.flush

/-- Inserts or updates an entity. -/
def save (f : Facade ρ σ) (r : ρ) : Session ρ σ Unit := f.saveMany [r]

/-- Schedules entities for deletion. -/
def removeMany (f : Facade ρ σ) (rs : List ρ) : Session ρ σ Unit :=
  f.askAll (fun r => ask f.engine (.remove r)) rs

/-- Schedules an entity for deletion. -/
def remove (f : Facade ρ σ) (r : ρ) : Session ρ σ Unit := f.removeMany [r]

/-- Deletes entities. -/
def deleteMany (f : Facade ρ σ) (rs : List ρ) : Session ρ σ Unit := do
  f.removeMany rs
  f.flush

/-- Deletes an entity. -/
def delete (f : Facade ρ σ) (r : ρ) : Session ρ σ Unit := f.deleteMany [r]

/-- Stops tracking an entity. -/
def detach (f : Facade ρ σ) (r : ρ) : Session ρ σ Unit := ask f.engine (.detach r)

/-- Stops tracking every entity. -/
def clear (f : Facade ρ σ) : Session ρ σ Unit := ask f.engine (.clear f.scope.schema)

/-! ## Maintenance -/

/-- Runs a statement. -/
def execute (f : Facade ρ σ) (statement : String) : Session ρ σ Unit := do
  let _ ← ask f.engine (.execute statement)

/-- Sets the next auto-increment value of the table. -/
def setAutoIncrement (f : Facade ρ σ) (value : UInt64) : Session ρ σ Unit :=
  f.execute ("ALTER TABLE " ++ f.scope.schema.table ++ " AUTO_INCREMENT = " ++
    toString value.toNat)

/-- Resets the auto-increment value of the table, if that is asked for. -/
def resetIf (f : Facade ρ σ) (reset : Bool) : Session ρ σ Unit :=
  if reset then f.setAutoIncrement 1 else pure ()

/-- Schedules every entity for deletion. -/
def removeAll (f : Facade ρ σ) (reset : Bool) : Session ρ σ Unit := do
  let rs ← f.findAll none
  f.removeMany rs
  f.resetIf reset

/-- Deletes every entity. -/
def deleteAll (f : Facade ρ σ) (reset : Bool) : Session ρ σ Unit := do
  f.removeAll reset
  f.flush

/-- Empties the table by a statement. -/
def truncate (f : Facade ρ σ) (reset : Bool) : Session ρ σ Unit := do
  f.execute ("TRUNCATE TABLE " ++ f.scope.schema.table)
  f.resetIf reset

end Facade

end Criteria
