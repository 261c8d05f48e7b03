import Criteria.Engine.Memory
import Criteria.Facade
import Criteria.Proofs.OrderedMap
import Criteria.Proofs.Record
import Mathlib.Data.Finset.Card
import Mathlib.Data.Finset.Dedup

/-!
# `Criteria.Proofs.Keying` — records by their identifiers

Records are indexed by their only identifier. This can fail for the schema, for the type of a record and for its
identifier, and it does so in this order, whatever the order of the records. What comes out lists every identifier
where it occurs first, with the last record that has it.

## Contents
- **Identifiers.** `identifiersOf` and `lastWith`, read off a list of records.
- **Indexing.** `Indexes`: a map lists and finds the records of a list as it should. One record is added by one write
  (`Keyed.add_of_some`), and so a list of them writes the entries of the list (`Keyed.foldlM_add`).
- **Keying.** `Keying`: the five ways in which keying goes, one of which it takes (`keying_keyById`).
- **Searches.** `Facade.Fetches`: the query of a search and the answer to it.
- **Result.** `keying_by_identifier`.
-/

namespace Criteria

variable {ρ σ : Type} [Record ρ] {field : String} {rs : List ρ}

/-! ## Identifiers -/

/-- The identifiers of records under a field. -/
def identifiersOf (field : String) (rs : List ρ) : List Identifier := rs.filterMap (Record.identifier? · field)

/-- The last record with an identifier. -/
def lastWith (field : String) (rs : List ρ) (id : Identifier) : Option ρ :=
  (rs.filter fun r => Record.identifier? r field = some id).getLast?

/-- Every record of a list gives access to a field. -/
def AllIdentified (field : String) (rs : List ρ) : Prop := ∀ r ∈ rs, Record.identifier? r field ≠ none

/-- The records that give access to a field, each behind its identifier. -/
def identified (field : String) (rs : List ρ) : List (Identifier × ρ) :=
  rs.filterMap fun r => (Record.identifier? r field).map fun id => (id, r)

theorem identified_cons_of_some {r : ρ} {id : Identifier} (h : Record.identifier? r field = some id) (rs : List ρ) :
    identified field (r :: rs) = (id, r) :: identified field rs := by
  rw [identified, List.filterMap_cons, h]
  rfl

theorem identified_cons_of_none {r : ρ} (h : Record.identifier? r field = none) (rs : List ρ) :
    identified field (r :: rs) = identified field rs := by
  rw [identified, List.filterMap_cons, h]
  rfl

theorem keys_identified (field : String) (rs : List ρ) :
    (identified field rs).map Prod.fst = identifiersOf field rs := by
  rw [identified, identifiersOf, List.map_filterMap]
  refine List.filterMap_congr fun r _ => ?_
  cases Record.identifier? r field <;> rfl

theorem filter_identified (field : String) (rs : List ρ) (id : Identifier) :
    ((identified field rs).filter fun e => e.1 = id).map Prod.snd =
      rs.filter fun r => Record.identifier? r field = some id := by
  induction rs with
  | nil => rfl
  | cons r rs ih =>
    cases h : Record.identifier? r field with
    | none => rw [identified_cons_of_none h, ih, List.filter_cons_of_neg (by simp [h])]
    | some own =>
      rw [identified_cons_of_some h]
      by_cases hown : own = id
      · rw [List.filter_cons_of_pos (by simpa using hown), List.map_cons, ih,
          List.filter_cons_of_pos (by simp [h, hown])]
      · rw [List.filter_cons_of_neg (by simpa using hown), ih, List.filter_cons_of_neg (by simp [h, hown])]

/-! ## Indexing -/

/-- A map is the index of a list of records by a field. -/
structure Indexes (field : String) (rs : List ρ) (k : Keyed ρ) : Prop where
  /-- Each identifier is listed once, in order of first occurrence. -/
  keys : k.keys = (identifiersOf field rs).eraseDups
  /-- Under an identifier is the last record that has it. -/
  get : ∀ id, k.get? id = lastWith field rs id
  /-- What is found is what is listed. -/
  listed : ∀ id r, (id, r) ∈ k.toList ↔ k.get? id = some r
  contains : ∀ id, k.contains id = true ↔ id ∈ k.keys
  /-- There are as many entries as different identifiers. -/
  size : k.size = (identifiersOf field rs).toFinset.card
  /-- The positions in the index are those of the identifiers that are listed, and no others. -/
  located : ∀ id i, k.index.lookup id = some i ↔ k.keys[i]? = some id

/-- Writing the records of a list gives their index. -/
theorem indexes_of_written {k : Keyed ρ} (h : k.toOrderedMap = .ofList (identified field rs)) :
    Indexes field rs k := by
  have hkeys : k.keys = (identifiersOf field rs).eraseDups := by
    rw [h, OrderedMap.ofList, OrderedMap.keys_setAll, keys_identified]
    simp [OrderedMap.keys, OrderedMap.empty, List.removeAll]
  have hnodup : k.keys.Nodup := by
    rw [h]
    exact OrderedMap.nodup_keys_setAll (m := .empty) List.nodup_nil _
  refine ⟨hkeys, ?_, ?_, ?_, ?_, ?_⟩
  · intro id
    -- of several records with one identifier the last one was written last
    have hlast := OrderedMap.get?_setAll .empty (identified field rs) id
    rw [OrderedMap.get?_empty, Option.or_none, ← List.getLast?_map, filter_identified] at hlast
    rw [k.get?_eq, h]
    exact hlast
  · intro id r
    rw [k.get?_eq]
    exact OrderedMap.mem_toList_iff hnodup
  · intro id
    rw [k.contains_eq]
    exact OrderedMap.contains_iff
  · have hset : (identifiersOf field rs).toFinset = k.keys.toFinset := by
      ext id
      simp [hkeys]
    rw [hset, List.toFinset_card_of_nodup hnodup]
    exact (List.length_map _).symm
  · intro id i
    rw [k.located]
    exact OrderedMap.position?_eq_some_iff hnodup

namespace Keyed

variable (schema : Schema)

/-- A record is added by writing it under its identifier. -/
theorem add_of_some {r : ρ} {id : Identifier} (h : Record.identifier? r field = some id) (k : Keyed ρ) :
    add schema field k r = .ok (k.set id r) := by
  rw [add, identifierOf, h]
  rfl

theorem add_of_none {r : ρ} (h : Record.identifier? r field = none) (k : Keyed ρ) :
    add schema field k r = .error (.schema (.noAccessor schema.name field)) := by
  rw [add, identifierOf, h]
  rfl

/-- **Records that all have an identifier are written one after the other.** -/
theorem foldlM_add (h : AllIdentified field rs) (k : Keyed ρ) :
    ∃ k' : Keyed ρ, rs.foldlM (add schema field) k = .ok k' ∧
      k'.toOrderedMap = k.toOrderedMap.setAll (identified field rs) := by
  induction rs generalizing k with
  | nil => exact ⟨k, rfl, rfl⟩
  | cons r rs ih =>
    obtain ⟨hr, hrs⟩ := List.forall_mem_cons.mp h
    obtain ⟨id, hid⟩ := Option.ne_none_iff_exists'.mp hr
    obtain ⟨k', hrun, hk'⟩ := ih hrs (k.set id r)
    refine ⟨k', ?_, ?_⟩
    · rw [List.foldlM_cons, add_of_some schema hid]
      exact hrun
    · rw [hk', identified_cons_of_some hid, k.toOrderedMap_set]
      rfl

/-- One record without an identifier fails them all, and the failure does not tell which record it was. -/
theorem foldlM_add_of_missing (h : ∃ r ∈ rs, Record.identifier? r field = none) (k : Keyed ρ) :
    rs.foldlM (add schema field) k = .error (.schema (.noAccessor schema.name field)) := by
  induction rs generalizing k with
  | nil =>
    obtain ⟨r, hr, -⟩ := h
    exact absurd hr List.not_mem_nil
  | cons r rs ih =>
    rw [List.foldlM_cons]
    cases hr : Record.identifier? r field with
    | none =>
      rw [add_of_none schema hr]
      rfl
    | some id =>
      -- this record has an identifier, so the one without is behind it
      have hrest : ∃ r' ∈ rs, Record.identifier? r' field = none := by
        obtain ⟨r', hmem, hnone⟩ := h
        rcases List.mem_cons.mp hmem with rfl | hmem
        · rw [hr] at hnone
          cases hnone
        · exact ⟨r', hmem, hnone⟩
      rw [add_of_some schema hr]
      exact ih hrest (k.set id r)

end Keyed

/-! ## Keying -/

/-- How keying records of a type goes. The schema is looked at first, then the types of all records, then their
    identifiers. -/
inductive Keying (t : EntityType) (schema : Schema) (rs : List ρ) : Except Fault (Keyed ρ) → Prop where
  /-- The schema has no identifier. -/
  | missing (hschema : schema.identifiers = []) :
      Keying t schema rs (.error (.schema (.missingIdentifier schema.name)))
  /-- The schema has several. -/
  | composite (hschema : 2 ≤ schema.identifiers.length) :
      Keying t schema rs (.error (.schema (.compositeIdentifier schema.name schema.identifiers)))
  /-- A record is of another type. -/
  | foreign {field : String} {r : ρ} (hschema : schema.identifiers = [field]) (hforeign : FirstForeign t rs r) :
      Keying t schema rs (.error (.typeMismatch t.name (Record.type r).name))
  /-- A record gives no access to its identifier. -/
  | inaccessible {field : String} (hschema : schema.identifiers = [field]) (htyped : AllOf t rs)
      (hrecord : ∃ r ∈ rs, Record.identifier? r field = none) :
      Keying t schema rs (.error (.schema (.noAccessor schema.name field)))
  /-- All records are indexed. -/
  | keyed {field : String} {k : Keyed ρ} (hschema : schema.identifiers = [field]) (htyped : AllOf t rs)
      (hrecords : AllIdentified field rs) (hindex : Indexes field rs k) : Keying t schema rs (.ok k)

/-- **Keying goes in one of these ways**, for any records and any schema. -/
theorem keying_keyById (t : EntityType) (schema : Schema) (rs : List ρ) : Keying t schema rs (keyById t schema rs) := by
  match hschema : schema.identifiers with
  | [] =>
    have hrun : keyById t schema rs = .error (.schema (.missingIdentifier schema.name)) := by
      rw [keyById, Schema.singleIdentifier, hschema]
      rfl
    rw [hrun]
    exact .missing hschema
  | a :: b :: more =>
    have hrun : keyById t schema rs = .error (.schema (.compositeIdentifier schema.name schema.identifiers)) := by
      rw [keyById, Schema.singleIdentifier, hschema]
      rfl
    rw [hrun]
    exact .composite (by simp [hschema])
  | [field] =>
    have hrun : keyById t schema rs =
        (rs.mapM (ofType t)).bind fun rs => rs.foldlM (Keyed.add schema field) .empty := by
      rw [keyById, Schema.singleIdentifier, hschema]
      rfl
    rw [hrun]
    -- all types are checked before the first identifier is asked for
    rcases allOf_or_firstForeign t rs with htyped | ⟨r, hforeign⟩
    · rw [mapM_ofType_of_allOf htyped]
      by_cases hmissing : ∃ r ∈ rs, Record.identifier? r field = none
      · have hfail := Keyed.foldlM_add_of_missing schema hmissing .empty
        rw [Except.bind, hfail]
        exact .inaccessible hschema htyped hmissing
      · have hrecords : AllIdentified field rs := fun r hr hnone => hmissing ⟨r, hr, hnone⟩
        obtain ⟨k, hadd, hk⟩ := Keyed.foldlM_add schema hrecords .empty
        rw [Except.bind, hadd]
        exact .keyed hschema htyped hrecords (indexes_of_written hk)
    · rw [mapM_ofType_of_firstForeign hforeign]
      exact .foreign hschema hforeign

/-! ## Searches -/

namespace Facade

open Session

/-- How the records for a search are had: an answer of the engine, or a failure to assemble the query. -/
inductive Fetches (f : Facade ρ σ) (s : Search) (w : World ρ σ) : Except Fault (List ρ) → World ρ σ → Prop where
  /-- The search is malformed, and the engine is not asked. -/
  | refused {fault : Fault} {supply : NameSupply}
      (hquery : (f.scope.find (f.request s)).runOn w.supply = (.error fault, supply)) :
      Fetches f s w (.error fault) { w with supply }
  /-- The engine is asked once, with the query of the search. -/
  | answered {q : Query} {supply : NameSupply} {answer : Except Fault (List ρ)} {b : σ}
      (hquery : (f.scope.find (f.request s)).runOn w.supply = (.ok q, supply))
      (hcall : f.engine.perform (.results q) w.engine = (answer, b)) :
      Fetches f s w answer ⟨supply, b, w.calls ++ [.results q]⟩

omit [Record ρ] in
theorem fetches_records (f : Facade ρ σ) (s : Search) (w : World ρ σ) :
    ∃ answer w', f.Fetches s w answer w' ∧ (f.records s).runIn w = (answer, w') := by
  rcases hquery : (f.scope.find (f.request s)).runOn w.supply with ⟨fault | q, supply⟩
  · refine ⟨.error fault, _, .refused hquery, ?_⟩
    rw [records, runIn_bind, runIn_naming, hquery]
  · exact ⟨_, _, .answered hquery rfl, f.runIn_records hquery⟩

end Facade

/-! ## Result -/

/-- **Keying by identifier.** Records are keyed in one of five ways: no identifier or several in the schema, a record
    of another type, a record without access to its identifier, and an index of all records. A search by identifier
    draws the names and asks for the query of the plain search; what it gives are the records of the answer, keyed. -/
theorem keying_by_identifier (t : EntityType) (schema : Schema) (rs : List ρ) (f : Facade ρ σ) (s : Facade.Search)
    (w : World ρ σ) :
    Keying t schema rs (keyById t schema rs) ∧
      ∃ answer w', f.Fetches s w answer w' ∧
        (f.findBy s).runIn w = (answer.bind fun rs => rs.mapM (ofType f.type), w') ∧
        (f.findByKeyed s).runIn w = (answer.bind (keyById f.type f.scope.schema), w') := by
  refine ⟨keying_keyById t schema rs, ?_⟩
  obtain ⟨answer, w', hfetches, hrun⟩ := f.fetches_records s w
  exact ⟨answer, w', hfetches, Session.runIn_bind_checked hrun _, Session.runIn_bind_checked hrun _⟩

/-- A null is an identifier like any other, and an integer is not the text of it. -/
example :
    let row : String → Identifier → Row := fun label id => ⟨label, ⟨0, "Product"⟩, [("id", id)]⟩
    let rows := [row "a" (.integer 1), row "b" .null, row "c" (.text "1"), row "d" (.integer 1), row "e" .null]
    ∃ k, keyById ⟨0, "Product"⟩ ⟨"Product", "product", [], [], ["id"]⟩ rows = .ok k ∧
      k.toList = [(.integer 1, row "d" (.integer 1)), (.null, row "e" .null), (.text "1", row "c" (.text "1"))] := by
  exact ⟨_, rfl, rfl⟩

end Criteria
