import Criteria.Proofs.Lists
import Criteria.Proofs.WireForm
import Mathlib.Logic.Relation

/-!
# `Criteria.Proofs.Spelling` — one search, spelled in several ways

The JSON form of a search is made of entries. Entries stand side by side in a mapping or in an array, and an entry may
be wrapped: a numeric key or an array position holds a mapping with one entry or an array with one item, to any
depth. None of this can be told from the conditions that are read, nor from the failure where an entry is malformed.

Only entries may be wrapped. What stands below a predicate is a property name beside its operand, even where its key
is numeric.

## Contents
- **Spellings.** `ListSpelling`, `EntrySpelling` and `ItemSpelling` are the single replacements in a list of entries,
  in an entry of a mapping, and in what stands at a position, each at any depth.
- **Reading.** Each of the three forms is read as any spelling of it (`ofJson_of_spelling`).
- **Result.** `respelling_keeps_reading`, for any number of replacements.
-/

namespace Criteria.Condition

/-! ## Spellings -/

mutual

/-- A list of entries is spelled differently. -/
inductive ListSpelling : Json → Json → Prop where
  /-- A mapping is an array of mappings with one entry each. -/
  | spread (entries : List (String × Json)) :
      ListSpelling (.object entries) (.array (entries.map fun e => .object [e]))
  | entry (before after : List (String × Json)) {e e' : String × Json} (h : EntrySpelling e e') :
      ListSpelling (.object (before ++ e :: after)) (.object (before ++ e' :: after))
  | item (before after : List Json) {v v' : Json} (h : ItemSpelling v v') :
      ListSpelling (.array (before ++ v :: after)) (.array (before ++ v' :: after))

/-- An entry of a mapping is spelled differently. -/
inductive EntrySpelling : String × Json → String × Json → Prop where
  /-- The entry is held under a numeric key. -/
  | wrap (e : String × Json) {index : String} (h : Json.isPositional index = true) :
      EntrySpelling e (index, .object [e])
  /-- What a numeric key holds is spelled differently. -/
  | held {index : String} (hindex : Json.isPositional index = true) {v v' : Json} (h : ItemSpelling v v') :
      EntrySpelling (index, v) (index, v')
  /-- The members of a group are spelled differently. -/
  | members {text : String} {clause : Clause} {connective : Connective}
      (hkey : Keyword.ofKey? text = some (.group clause connective)) {v v' : Json} (h : ListSpelling v v') :
      EntrySpelling (text, v) (text, v')

/-- What stands at a position is spelled differently. -/
inductive ItemSpelling : Json → Json → Prop where
  /-- It is held under a numeric key. -/
  | wrap (v : Json) {index : String} (h : Json.isPositional index = true) : ItemSpelling v (.object [(index, v)])
  /-- It is the one item of an array. -/
  | box (v : Json) : ItemSpelling v (.array [v])
  /-- The entry at the position is spelled differently. -/
  | entry {e e' : String × Json} (h : EntrySpelling e e') : ItemSpelling (.object [e]) (.object [e'])
  /-- What stands at the position inside is spelled differently. -/
  | item {v v' : Json} (h : ItemSpelling v v') : ItemSpelling (.array [v]) (.array [v'])

end

theorem ListSpelling.isComposite {v w : Json} (h : ListSpelling v w) : v.isComposite = true ∧ w.isComposite = true := by
  cases h <;> exact ⟨rfl, rfl⟩

/-! ## Reading -/

mutual

/-- **A list of entries is read as any spelling of it.** -/
theorem ofJson_of_spelling : ∀ {v w : Json}, ListSpelling v w → ofJson v = ofJson w
  | _, _, .spread entries => by
    have hitems : (entries.map fun e => Json.object [e]).mapM (ofEntry .position) = entries.mapM ofPair := by
      rw [List.mapM_map]
      exact congrArg (entries.mapM ·) (funext ofEntry_object)
    rw [ofJson, ofJson, ofEntries_eq_mapM, ofItems_eq_mapM, hitems]
  | _, _, .entry before after h => by
    rw [ofJson, ofJson, ofEntries_eq_mapM, ofEntries_eq_mapM, mapM_around (ofPair_of_spelling h)]
  | _, _, .item before after h => by
    rw [ofJson, ofJson, ofItems_eq_mapM, ofItems_eq_mapM, mapM_around (ofEntry_of_spelling h)]

theorem ofPair_of_spelling : ∀ {e e' : String × Json}, EntrySpelling e e' → ofPair e = ofPair e'
  | _, _, .wrap e h => by rw [ofPair_of_isPositional h, ofEntry_object]
  | _, _, .held hindex h => by
    rw [ofPair_of_isPositional hindex, ofPair_of_isPositional hindex, ofEntry_of_spelling h]
  | _, _, .members hkey h => by
    obtain ⟨hv, hw⟩ := h.isComposite
    rw [ofPair_of_group hkey hv, ofPair_of_group hkey hw, ofJson_of_spelling h]

theorem ofEntry_of_spelling : ∀ {v w : Json}, ItemSpelling v w → ofEntry .position v = ofEntry .position w
  | _, _, .wrap v h => by rw [ofEntry_object, ofPair_of_isPositional h]
  | _, _, .box v => (ofEntry_array v).symm
  | _, _, .entry h => by rw [ofEntry_object, ofEntry_object, ofPair_of_spelling h]
  | _, _, .item h => by rw [ofEntry_array, ofEntry_array, ofEntry_of_spelling h]

end

/-! ## Result -/

/-- **Spelling makes no difference.** Two values that can be turned into each other by respelling lists of entries and
    entries, at any depth and any number of times, are read as the same search, or fail with the same failure. -/
theorem respelling_keeps_reading {v w : Json} (h : Relation.EqvGen ListSpelling v w) : ofJson v = ofJson w := by
  induction h with
  | rel v w h => exact ofJson_of_spelling h
  | refl v => rfl
  | symm v w _ ih => exact ih.symm
  | trans u v w _ _ ih ih' => exact ih.trans ih'

/-- A mapping becomes an array, and a comparison in a group is wrapped twice. -/
theorem respelling_keeps_reading_wrapped :
    let less : String × Json := ("__HAVING_LESS__", entry "total" (.int 9))
    let v : Json := .object [("name", .string "bike"), ("__OR_HAVING__", .object [less])]
    let rows : Json → Json := fun members => .array [entry "name" (.string "bike"), entry "__OR_HAVING__" members]
    let w : Json := rows (entry "7" (.array [.object [less]]))
    Relation.EqvGen ListSpelling v w ∧ ofJson v = ofJson w ∧
      ofJson w = .ok [.bare "name" (.string "bike"),
        .group .having .or [.compare .having .less "total" (.int 9)]] := by
  intro less v rows w
  have hseven : Json.isPositional "7" = true := by decide
  have hgroup : Keyword.ofKey? "__OR_HAVING__" = some (.group .having .or) := by decide
  have hspread : ListSpelling v (rows (.object [less])) := .spread _
  have hwrap : ListSpelling (.object [less]) (entry "7" (.object [less])) := .entry [] [] (.wrap less hseven)
  have hbox : ListSpelling (entry "7" (.object [less])) (entry "7" (.array [.object [less]])) :=
    .entry [] [] (.held hseven (.box _))
  have hmembers : ∀ {a b : Json}, ListSpelling a b → ListSpelling (rows a) (rows b) :=
    fun h => .item [entry "name" (.string "bike")] [] (.entry (.members hgroup h))
  have hspelling : Relation.EqvGen ListSpelling v w :=
    .trans _ _ _ (.rel _ _ hspread) (.trans _ _ _ (.rel _ _ (hmembers hwrap)) (.rel _ _ (hmembers hbox)))
  exact ⟨hspelling, respelling_keeps_reading hspelling, rfl⟩

-- the failure of a malformed entry does not tell how often the entry was wrapped
example :
    let malformed : Json := entry "price" (.object [])
    ofJson malformed = reject (.mappingValue "price") ∧
      ofJson (.array [.array [entry "0" (.array [malformed])]]) = reject (.mappingValue "price") := by
  exact ⟨rfl, rfl⟩

end Criteria.Condition
