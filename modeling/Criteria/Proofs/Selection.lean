import Criteria.Proofs.Lists
import Criteria.Proofs.StepOrder
import Mathlib.Data.List.Induction

/-!
# `Criteria.Proofs.Selection` — what a query selects

A query selects its root entity unless its extras bring a select list, which then takes the place of the root. The list
may be an array or a mapping, and a mapping may nest arrays of joined aliases. Each of these may be empty, and nobody
asks whether anything is left: a list without items is taken as it is.

## Contents
- **Select lists.** `SelectsNothing`: the values that are read as a list without items (`selectsOf_eq_nil_iff`).
- **Sections.** `selectSection?`: the select list that counts when extras are read (`selects_ofJson`).
- **Queries.** `select_find` and `Query.begins_text`: where the list goes.
- **Result.** `selects_nothing_iff`, and queries that select nothing.
-/

namespace Criteria

open Condition

/-! ## Select lists -/

namespace Extras

/-- A select list without items: an empty array, or a mapping that has nothing but empty arrays of joined aliases. -/
inductive SelectsNothing : Json → Prop where
  | array : SelectsNothing (.array [])
  | object {entries : List (String × Json)} (h : ∀ e ∈ entries, e = (joinedKey, .array [])) :
      SelectsNothing (.object entries)

theorem joinedValues_eq_nil_iff {v : Json} : joinedValues v = [] ↔ v = .array [] := by
  cases v <;> simp [joinedValues]

/-- An entry brings no item only if it is an empty array of joined aliases. -/
theorem selectEntry_eq_nil_iff {e : String × Json} : selectEntry e = .ok [] ↔ e = (joinedKey, .array []) := by
  rw [selectEntry, Prod.ext_iff]
  by_cases hkey : e.1 = joinedKey
  · rw [if_pos hkey, mapM_eq_nil_iff, joinedValues_eq_nil_iff]
    exact (and_iff_right hkey).symm
  · -- an entry of any other kind is one item
    rw [if_neg hkey]
    refine iff_of_false ?_ fun h => hkey h.1
    split <;> simp [map_eq_ok_iff]

/-- **The values that are read as a list without items.** -/
theorem selectsOf_eq_nil_iff {v : Json} : selectsOf v = .ok [] ↔ SelectsNothing v := by
  cases v with
  | array items =>
    rw [selectsOf, mapM_eq_nil_iff]
    refine ⟨?_, ?_⟩
    · rintro rfl
      exact .array
    · rintro ⟨⟩
      rfl
  | object entries =>
    rw [selectsOf, mapM_flatten_eq_nil_iff]
    simp only [selectEntry_eq_nil_iff]
    exact ⟨.object, fun | .object h => h⟩
  | null | bool | number | string => exact iff_of_false nofun nofun

/-! ## Sections -/

/-- The select list that counts: that of the last section for it. -/
def selectSection? : Json → Option Json
  | .object entries => entries.reverse.lookup "selects"
  | _ => .none

/-- A section for the select list sets it, and any other section leaves it. -/
theorem selects_readSection {extras extras' : Extras} {key : String} {v : Json}
    (h : readSection extras (key, v) = .ok extras') :
    (key = "selects" → ∃ items, selectsOf v = .ok items ∧ extras'.selects = some items) ∧
      (key ≠ "selects" → extras'.selects = extras.selects) := by
  unfold readSection at h
  dsimp only at h
  split at h
  case h_1 =>
    obtain ⟨items, hitems, rfl⟩ := map_eq_ok_iff.mp h
    exact ⟨fun _ => ⟨items, hitems, rfl⟩, fun hkey => absurd rfl hkey⟩
  case h_2 | h_3 | h_4 =>
    -- joins and groupings have fields of their own
    obtain ⟨names, -, rfl⟩ := map_eq_ok_iff.mp h
    exact ⟨fun hkey => absurd hkey (by decide), fun _ => rfl⟩
  case h_5 => exact absurd h nofun

/-- **Reading extras** reads the select list that counts; without one, the extras have none. -/
theorem selects_ofJson {v : Json} {extras : Extras} (h : ofJson v = .ok extras) :
    (selectSection? v).mapM selectsOf = .ok extras.selects := by
  cases v with
  | object entries =>
    rw [ofJson] at h
    show (entries.reverse.lookup "selects").mapM selectsOf = .ok extras.selects
    -- from the back: the last entry either is the section that counts, or it leaves the select list to the others
    induction entries using List.reverseRecOn generalizing extras with
    | nil =>
      obtain rfl := Except.ok.inj h
      rfl
    | append_singleton entries e ih =>
      obtain ⟨front, hfront, hlast⟩ := foldlM_concat_eq_ok_iff.mp h
      obtain ⟨hset, hkept⟩ := selects_readSection hlast
      rw [List.reverse_append, List.reverse_singleton, List.singleton_append, List.lookup_cons]
      by_cases hkey : e.1 = "selects"
      · obtain ⟨items, hitems, hselects⟩ := hset hkey
        have hsame : ("selects" == e.1) = true := by simpa using hkey.symm
        rw [hsame, hselects]
        exact map_eq_ok_iff.mpr ⟨items, hitems, rfl⟩
      · have hother : ("selects" == e.1) = false := by simpa using Ne.symm hkey
        rw [hother, hkept hkey]
        exact ih hfront
  | null =>
    obtain rfl := Except.ok.inj h
    rfl
  | bool | number | string | array => exact absurd h nofun

end Extras

/-! ## Queries -/

/-- A request with legal conditions becomes a query. It has the select list of the extras, or the root entity in place
    of an absent one. -/
theorem Scope.select_find (s : Scope) {r : FindRequest} (hlegal : AllLegal (inspected r.conditions))
    (supply : NameSupply) :
    ∃ q, (s.find r).runOn supply = (.ok q, supply.skip (drawnBy r.conditions)) ∧ q.select = s.selection r.extras := by
  refine ⟨s.assembled r s.base supply, ?_, rfl⟩
  rw [find_eq_assemble, runOn_assemble_steps, firstFlaw?_eq_none_iff.mpr hlegal]

/-- A text begins with another. -/
def Begins (head t : String) : Prop := ∃ rest, t = head ++ rest

theorem Begins.append {head t : String} (h : Begins head t) (u : String) : Begins head (t ++ u) := by
  obtain ⟨rest, rfl⟩ := h
  exact ⟨rest ++ u, String.append_assoc⟩

/-- The select list stands at the beginning of the text. -/
theorem Query.begins_text (q : Query) :
    Begins ("SELECT " ++ String.intercalate ", " q.select ++ " FROM ") q.text := by
  unfold text
  -- the eight parts behind the name of the entity
  iterate 8 refine Begins.append ?_ _
  exact ⟨q.entity, rfl⟩

/-! ## Result -/

namespace Scope

theorem selection_eq_nil_iff (s : Scope) (extras : Extras) : s.selection extras = [] ↔ extras.selects = some [] := by
  rw [selection]
  cases extras.selects <;> simp

/-- **A query selects nothing when it is told to.** Let extras be read from a value. A request with these extras, with
    any order and window and with legal conditions, becomes a query. Its select list is the root entity when the value
    has no select list, and it is empty exactly when the value has one without items. The text has it between its first
    two keywords, empty or not. -/
theorem selects_nothing_iff (s : Scope) (r : FindRequest) {v : Json} (hread : Extras.ofJson v = .ok r.extras)
    (hlegal : AllLegal (inspected r.conditions)) (supply : NameSupply) :
    ∃ q, (s.find r).runOn supply = (.ok q, supply.skip (drawnBy r.conditions)) ∧
      (Extras.selectSection? v = none → q.select = [s.rootAlias]) ∧
      (q.select = [] ↔ ∃ list, Extras.selectSection? v = some list ∧ Extras.SelectsNothing list) ∧
      Begins ("SELECT " ++ String.intercalate ", " q.select ++ " FROM ") q.text := by
  have hselects := Extras.selects_ofJson hread
  obtain ⟨q, hrun, hselect⟩ := s.select_find hlegal supply
  refine ⟨q, hrun, ?absent, ?empty, q.begins_text⟩
  case absent =>
    intro hnone
    rw [hnone] at hselects
    rw [hselect, selection, ← Except.ok.inj hselects]
    rfl
  case empty =>
    rw [hselect, selection_eq_nil_iff]
    cases hlist : Extras.selectSection? v with
    | none =>
      rw [hlist] at hselects
      rw [← Except.ok.inj hselects]
      simp
    | some list =>
      rw [hlist] at hselects
      obtain ⟨items, hitems, hsome⟩ := map_eq_ok_iff.mp hselects
      simp [← hsome, ← Extras.selectsOf_eq_nil_iff, hitems]

/-- An empty array of joined aliases brings nothing, but beside it there may be other items. -/
theorem selects_nothing_iff_joined :
    let s : Scope := ⟨"entity", ⟨"Product", "product", ["name"], ["tags"], ["id"]⟩⟩
    let list : Json := .object [("__SELECT_JOIN__", .array []), ("name", .string "label")]
    let v : Json := .object [("groupBys", .array [.string "name"]), ("selects", list)]
    ∃ r q, Extras.ofJson v = .ok r.extras ∧ AllLegal (inspected r.conditions) ∧ r.conditions ≠ [] ∧
      (s.find r).runOn (NameSupply.ofStem "p") = (.ok q, ⟨"p", 2⟩) ∧
      ¬ Extras.SelectsNothing list ∧ q.select ≠ [] := by
  intro s list v
  let extras : Extras := ⟨some [.aliased "name" "label"], [], [], ["name"]⟩
  let r : FindRequest := ⟨[.bare "name" (.string "bike")], [], some 10, none, extras⟩
  have hread : Extras.ofJson v = .ok r.extras := by rfl
  have hlegal : AllLegal (inspected r.conditions) := firstFlaw?_eq_none_iff.mp rfl
  have hlist : ¬ Extras.SelectsNothing list := by
    rw [← Extras.selectsOf_eq_nil_iff]
    exact nofun
  obtain ⟨q, hrun, -, hempty, -⟩ := s.selects_nothing_iff r hread hlegal (NameSupply.ofStem "p")
  refine ⟨r, q, hread, hlegal, List.cons_ne_nil _ _, hrun, hlist, fun hq => ?_⟩
  obtain ⟨list', hlist', hnothing⟩ := hempty.mp hq
  obtain rfl : list = list' := Option.some.inj hlist'
  exact hlist hnothing

/-- An empty select list is read and accepted, and nothing stands between the keywords of the query. -/
theorem select_list_without_items :
    let s : Scope := ⟨"entity", ⟨"Product", "product", ["name"], ["tags"], ["id"]⟩⟩
    let v : Json := .object [("selects", .array [])]
    ∃ extras q, Extras.ofJson v = .ok extras ∧
      (s.find ⟨[], [], none, none, extras⟩).runOn (NameSupply.ofStem "p") = (.ok q, NameSupply.ofStem "p") ∧
      q.select = [] ∧ q.text = "SELECT  FROM Product entity" := by
  intro s v
  exact ⟨⟨some [], [], [], []⟩, _, rfl, rfl, rfl, by decide +kernel⟩

end Scope

end Criteria
