import Criteria.Proofs.DistinctKeys
import Criteria.Proofs.Lists
import Criteria.Proofs.Selection
import Criteria.Proofs.WireForm
import Mathlib.Data.List.Nodup

/-!
# `Criteria.Proofs.ExtrasForm` — what the JSON form of extras can say

A mapping has each of its keys once, and in a select list raw items, aliased items and the list of joined aliases share
one mapping. So extras that repeat an aliased expression or the association of a join, or that put other items between
joined ones, have no JSON form. All others have one, and it is read back to them.

## Contents
- **Keys.** A position in decimal is never an expression.
- **Expressible extras.** `Listable` judges a select list, `Expressible` whole extras.
- **Entries.** `Brings`: the items that an entry of a select list is read as.
- **Reading.** Everything that is read is expressible (`listable_selectsOf`, `yields_readSection`), and so is
  what a text says (`expressible_of_parse?`).
- **Writing.** The entries of a select list are read back (`selectsOf_selectEntries`) and have distinct keys
  (`nodup_keys_selectEntries`).
- **Result.** `read_iff_expressible`.
-/

namespace Criteria

open Condition

/-! ## Keys -/

namespace Json

/-- A number written in decimal is a position. -/
theorem isPositional_toString (n : Nat) : isPositional (toString n) = true := by
  have hdigits : (toString n).toList = Nat.toDigits 10 n := Nat.toList_repr
  have hne : toString n ≠ "" := fun h => Nat.toDigits_ne_nil (hdigits.symm.trans (congrArg String.toList h))
  have hall : (toString n).toList.all Char.isDigit = true :=
    List.all_eq_true.mpr fun c hc => Nat.isDigit_of_mem_toDigits (by decide) (by decide) (hdigits ▸ hc)
  rw [isPositional, hall, decide_eq_true hne]
  rfl

/-- Different positions are written differently. -/
theorem toString_inj {m n : Nat} (h : toString m = toString n) : m = n := by
  have hdigits (n : Nat) : (toString n).toList = Nat.toDigits 10 n := Nat.toList_repr
  exact toDigits_inj (by rw [← hdigits, h, hdigits])

end Json

/-! ## Expressible extras -/

/-- The expression that an item gives a name. -/
def SelectItem.expression? : SelectItem → Option String
  | .aliased expression _ => some expression
  | _ => none

/-- Whether an item is a joined alias. -/
def SelectItem.isJoined : SelectItem → Bool
  | .joined _ => true
  | _ => false

namespace Extras

/-- Whether a key of a select list is an expression: it is no position and not reserved. -/
def isExpression (key : String) : Bool := key ≠ joinedKey && !Json.isPositional key

/-- The expressions of aliased items, in order. -/
def expressions (items : List SelectItem) : List String := items.filterMap SelectItem.expression?

/-- The joined items of a select list stand in one block. -/
def JoinedTogether (items : List SelectItem) : Prop :=
  ∃ (before : List SelectItem) (names : List String) (after : List SelectItem),
    items = before ++ names.map .joined ++ after ∧ ∀ i ∈ before ++ after, i.isJoined = false

/-- The select lists that the JSON form can say. -/
structure Listable (items : List SelectItem) : Prop where
  distinct : (expressions items).Nodup
  keys : ∀ x ∈ expressions items, isExpression x = true
  together : JoinedTogether items

/-- The extras that the JSON form can say. Groupings are arbitrary. -/
structure Expressible (e : Extras) : Prop where
  selects : ∀ items, e.selects = some items → Listable items
  leftJoins : (e.leftJoins.map Prod.fst).Nodup
  innerJoins : (e.innerJoins.map Prod.fst).Nodup

theorem isExpression_of_isPositional {key : String} (h : Json.isPositional key = true) : isExpression key = false := by
  rw [isExpression, h]
  exact Bool.and_false _

theorem isPositional_joinedKey : Json.isPositional joinedKey = false := by decide

theorem isExpression_joinedKey : isExpression joinedKey = false := by decide

theorem toString_ne_joinedKey (n : Nat) : toString n ≠ joinedKey := fun h =>
  absurd (h ▸ Json.isPositional_toString n) (Bool.eq_false_iff.mp isPositional_joinedKey)

/-- An item that is not joined may stand in front. -/
theorem JoinedTogether.cons {item : SelectItem} (hitem : item.isJoined = false) {rest : List SelectItem}
    (h : JoinedTogether rest) : JoinedTogether (item :: rest) := by
  obtain ⟨before, names, after, rfl, hothers⟩ := h
  exact ⟨item :: before, names, after, rfl, List.forall_mem_cons.mpr ⟨hitem, hothers⟩⟩

/-- Joined items may stand in front of others. -/
theorem joinedTogether_block (names : List String) {rest : List SelectItem} (h : ∀ i ∈ rest, i.isJoined = false) :
    JoinedTogether (names.map .joined ++ rest) := ⟨[], names, rest, rfl, h⟩

theorem JoinedTogether.tail {item : SelectItem} {rest : List SelectItem} (h : JoinedTogether (item :: rest)) :
    JoinedTogether rest := by
  obtain ⟨before, names, after, hitems, hothers⟩ := h
  cases before with
  | cons b before =>
    obtain ⟨rfl, rfl⟩ := List.cons.inj hitems
    exact ⟨before, names, after, rfl, (List.forall_mem_cons.mp hothers).2⟩
  | nil =>
    cases names with
    | cons name names =>
      obtain ⟨rfl, rfl⟩ := List.cons.inj hitems
      exact ⟨[], names, after, rfl, hothers⟩
    | nil =>
      obtain rfl : item :: rest = after := hitems
      exact ⟨[], [], rest, rfl, (List.forall_mem_cons.mp hothers).2⟩

/-- Behind a joined item comes another one, or none does at all. -/
theorem JoinedTogether.next {name : String} {rest : List SelectItem} (h : JoinedTogether (.joined name :: rest)) :
    (∃ name' rest', rest = .joined name' :: rest') ∨ ∀ i ∈ rest, i.isJoined = false := by
  obtain ⟨before, names, after, hitems, hothers⟩ := h
  cases before with
  | cons b before =>
    obtain ⟨rfl, -⟩ := List.cons.inj hitems
    exact absurd (hothers _ List.mem_cons_self) nofun
  | nil =>
    cases names with
    | nil =>
      obtain rfl : _ :: _ = after := hitems
      exact absurd (hothers _ List.mem_cons_self) nofun
    | cons name names =>
      obtain ⟨-, rfl⟩ := List.cons.inj hitems
      cases names with
      | nil => exact .inr hothers
      | cons name' names => exact .inl ⟨name', _, rfl⟩

/-! ## Entries -/

theorem textOf_eq_ok_iff {item : ExtraItem} {v : Json} {s : String} : textOf item v = .ok s ↔ v = .string s := by
  cases v <;> simp [textOf]

theorem map_textOf_eq_ok_iff {β : Type} (item : ExtraItem) (f : String → β) (v : Json) (b : β) :
    (textOf item v).map f = .ok b ↔ ∃ s, v = .string s ∧ b = f s := by
  rw [map_eq_ok_iff]
  simp only [textOf_eq_ok_iff]
  exact exists_congr fun s => and_congr_right fun _ => eq_comm

/-- The items that an entry of a select list is read as. -/
inductive Brings : String × Json → List SelectItem → Prop where
  | joined {v : Json} {names : List String} (h : joinedValues v = names.map .string) :
      Brings (joinedKey, v) (names.map .joined)
  | raw {key : String} (h : Json.isPositional key = true) (text : String) : Brings (key, .string text) [.raw text]
  | aliased {key : String} (h : isExpression key = true) (name : String) :
      Brings (key, .string name) [.aliased key name]

section Brings

variable {key : String} {v : Json} {block : List SelectItem}

theorem brings_joinedKey_iff : Brings (joinedKey, v) block ↔
    ∃ names : List String, joinedValues v = names.map .string ∧ block = names.map .joined := by
  constructor
  · intro h
    cases h with
    | joined hv => exact ⟨_, hv, rfl⟩
    | raw h => exact absurd h (Bool.eq_false_iff.mp isPositional_joinedKey)
    | aliased h => exact absurd h (Bool.eq_false_iff.mp isExpression_joinedKey)
  · rintro ⟨names, hv, rfl⟩
    exact .joined hv

theorem brings_position_iff (hkey : Json.isPositional key = true) : Brings (key, v) block ↔
    ∃ text, v = .string text ∧ block = [.raw text] := by
  constructor
  · intro h
    cases h with
    | joined => exact absurd hkey (Bool.eq_false_iff.mp isPositional_joinedKey)
    | raw _ text => exact ⟨text, rfl, rfl⟩
    | aliased h => exact absurd h (Bool.eq_false_iff.mp (isExpression_of_isPositional hkey))
  · rintro ⟨text, rfl, rfl⟩
    exact .raw hkey text

theorem brings_expression_iff (hkey : isExpression key = true) : Brings (key, v) block ↔
    ∃ name, v = .string name ∧ block = [.aliased key name] := by
  constructor
  · intro h
    cases h with
    | joined => exact absurd hkey (Bool.eq_false_iff.mp isExpression_joinedKey)
    | raw h => exact absurd hkey (Bool.eq_false_iff.mp (isExpression_of_isPositional h))
    | aliased _ name => exact ⟨name, rfl, rfl⟩
  · rintro ⟨name, rfl, rfl⟩
    exact .aliased hkey name

end Brings

/-- An entry is read as the items that it brings. -/
theorem selectEntry_eq_ok_iff {e : String × Json} {block : List SelectItem} :
    selectEntry e = .ok block ↔ Brings e block := by
  obtain ⟨key, v⟩ := e
  unfold selectEntry
  by_cases hjoined : key = joinedKey
  · subst hjoined
    rw [brings_joinedKey_iff, if_pos rfl, mapM_eq_ok_iff (map_textOf_eq_ok_iff .joinedSelect SelectItem.joined)]
  by_cases hposition : Json.isPositional key = true
  · rw [brings_position_iff hposition, if_neg hjoined, if_pos hposition, map_textOf_eq_ok_iff]
  · have hexpression : isExpression key = true := by simp [isExpression, hjoined, hposition]
    rw [brings_expression_iff hexpression, if_neg hjoined, if_neg hposition, map_textOf_eq_ok_iff]

/-- A mapping is read entry by entry. -/
theorem selectsOf_cons_eq_ok_iff {e : String × Json} {entries : List (String × Json)} {items : List SelectItem} :
    selectsOf (.object (e :: entries)) = .ok items ↔
      ∃ block rest, Brings e block ∧ selectsOf (.object entries) = .ok rest ∧ items = block ++ rest := by
  simp only [selectsOf, map_eq_ok_iff, mapM_cons_eq_ok_iff, ← selectEntry_eq_ok_iff]
  constructor
  · rintro ⟨_, ⟨block, blocks, hblock, hblocks, rfl⟩, rfl⟩
    exact ⟨block, blocks.flatten, hblock, ⟨blocks, hblocks, rfl⟩, rfl⟩
  · rintro ⟨block, _, hblock, ⟨blocks, hblocks, rfl⟩, rfl⟩
    exact ⟨block :: blocks, ⟨block, blocks, hblock, hblocks, rfl⟩, rfl⟩

/-! ## Reading -/

theorem expressions_append (items items' : List SelectItem) :
    expressions (items ++ items') = expressions items ++ expressions items' := List.filterMap_append

theorem expressions_joined (names : List String) : expressions (names.map .joined) = [] := by
  rw [expressions, List.filterMap_map, List.filterMap_eq_nil_iff]
  exact fun _ _ => rfl

/-- The expressions of a select list are the keys of its entries that are expressions. -/
theorem expressions_selectsOf {entries : List (String × Json)} {items : List SelectItem}
    (h : selectsOf (.object entries) = .ok items) :
    expressions items = (entries.map Prod.fst).filter isExpression := by
  induction entries generalizing items with
  | nil =>
    obtain rfl := Except.ok.inj h
    rfl
  | cons e entries ih =>
    obtain ⟨block, rest, hblock, hrest, rfl⟩ := selectsOf_cons_eq_ok_iff.mp h
    rw [expressions_append, ih hrest, List.map_cons]
    cases hblock with
    | joined =>
      rw [expressions_joined, List.filter_cons_of_neg (Bool.eq_false_iff.mp isExpression_joinedKey)]
      rfl
    | raw hkey =>
      rw [List.filter_cons_of_neg (Bool.eq_false_iff.mp (isExpression_of_isPositional hkey))]
      rfl
    | aliased hkey =>
      rw [List.filter_cons_of_pos hkey]
      rfl

/-- Joined items come only from the reserved key. -/
theorem isJoined_selectsOf {entries : List (String × Json)} {items : List SelectItem}
    (h : selectsOf (.object entries) = .ok items) (hkey : joinedKey ∉ entries.map Prod.fst) :
    ∀ i ∈ items, i.isJoined = false := by
  induction entries generalizing items with
  | nil =>
    obtain rfl := Except.ok.inj h
    exact List.forall_mem_nil _
  | cons e entries ih =>
    obtain ⟨block, rest, hblock, hrest, rfl⟩ := selectsOf_cons_eq_ok_iff.mp h
    rw [List.map_cons, List.mem_cons, not_or] at hkey
    cases hblock with
    | joined => exact absurd rfl hkey.1
    | raw | aliased => exact List.forall_mem_cons.mpr ⟨rfl, ih hrest hkey.2⟩

theorem joinedTogether_selectsOf {entries : List (String × Json)} {items : List SelectItem}
    (h : selectsOf (.object entries) = .ok items) (hkeys : (entries.map Prod.fst).Nodup) : JoinedTogether items := by
  induction entries generalizing items with
  | nil =>
    obtain rfl := Except.ok.inj h
    exact joinedTogether_block [] (List.forall_mem_nil _)
  | cons e entries ih =>
    obtain ⟨block, rest, hblock, hrest, rfl⟩ := selectsOf_cons_eq_ok_iff.mp h
    obtain ⟨hkey, hothers⟩ := List.nodup_cons.mp hkeys
    cases hblock with
    | joined => exact joinedTogether_block _ (isJoined_selectsOf hrest hkey)
    | raw | aliased => exact (ih hrest hothers).cons rfl

theorem listable_raw (texts : List String) : Listable (texts.map .raw) := by
  have hexpressions : expressions (texts.map .raw) = [] := by
    rw [expressions, List.filterMap_map, List.filterMap_eq_nil_iff]
    exact fun _ _ => rfl
  have hothers : ∀ i ∈ texts.map SelectItem.raw, i.isJoined = false := by
    intro i hi
    obtain ⟨text, -, rfl⟩ := List.mem_map.mp hi
    rfl
  refine ⟨?_, ?_, joinedTogether_block [] hothers⟩
  · rw [hexpressions]
    exact List.nodup_nil
  · rw [hexpressions]
    exact List.forall_mem_nil _

/-- **Select lists.** What is read from an array or from a mapping can be said. -/
theorem listable_selectsOf {v : Json} (hv : v.Distinct) {items : List SelectItem} (h : selectsOf v = .ok items) :
    Listable items := by
  cases v with
  | array vs =>
    obtain ⟨texts, -, rfl⟩ := (mapM_eq_ok_iff (map_textOf_eq_ok_iff .selectItem SelectItem.raw)).mp h
    exact listable_raw texts
  | object entries =>
    have hexpressions := expressions_selectsOf h
    refine ⟨?_, ?_, joinedTogether_selectsOf h hv.keys⟩
    · rw [hexpressions]
      exact hv.keys.filter _
    · rw [hexpressions]
      exact fun x hx => (List.mem_filter.mp hx).2
  | null | bool | number | string => exact absurd h nofun

/-- Joins are read from the mapping that writes them, and from nothing else. -/
theorem joinsOf_eq_ok_iff {kind : JoinKind} {v : Json} {joins : List (String × String)} :
    joinsOf kind v = .ok joins ↔ v = joinEntries joins := by
  have hjoin (e : String × Json) (join : String × String) :
      (textOf .joinAlias e.2).map (fun name => (e.1, name)) = .ok join ↔
        ∃ j : String × String, e = (j.1, .string j.2) ∧ join = id j := by
    obtain ⟨key, v⟩ := e
    rw [map_textOf_eq_ok_iff]
    constructor
    · rintro ⟨name, rfl, rfl⟩
      exact ⟨(key, name), rfl, rfl⟩
    · rintro ⟨⟨association, name⟩, hentry, rfl⟩
      obtain ⟨rfl, rfl⟩ := Prod.mk.inj hentry
      exact ⟨name, rfl, rfl⟩
  cases v with
  | object entries =>
    rw [joinsOf, mapM_eq_ok_iff hjoin, joinEntries, Json.object.injEq]
    simp only [List.map_id]
    exact ⟨fun ⟨_, hentries, hjoins⟩ => hjoins ▸ hentries, fun hentries => ⟨joins, hentries, rfl⟩⟩
  | null | bool | number | string | array => exact iff_of_false nofun nofun

theorem groupBysOf_texts (names : List String) : groupBysOf (.array (names.map .string)) = .ok names := by
  have htext (v : Json) (s : String) : textOf .groupBy v = .ok s ↔ ∃ t, v = .string t ∧ s = id t := by
    rw [textOf_eq_ok_iff]
    exact ⟨fun hv => ⟨s, hv, rfl⟩, fun ⟨_, hv, hs⟩ => hs ▸ hv⟩
  exact (mapM_eq_ok_iff htext).mpr ⟨names, rfl, (List.map_id names).symm⟩

theorem keys_joins {joins : List (String × String)} (h : (joinEntries joins).Distinct) :
    (joins.map Prod.fst).Nodup := by
  have hkeys := h.keys
  rw [List.map_map] at hkeys
  exact hkeys

/-- **One section.** A section is read into its own field and leaves the others. -/
theorem yields_readSection {extras : Extras} (h : extras.Expressible) {e : String × Json} (he : e.2.Distinct) :
    Yields (readSection extras e) Expressible := by
  unfold readSection
  split
  · -- the select list
    rintro _ hread
    obtain ⟨items, hitems, rfl⟩ := map_eq_ok_iff.mp hread
    exact { h with selects := fun _ hsome => Option.some.inj hsome ▸ listable_selectsOf he hitems }
  · rintro _ hread
    obtain ⟨joins, hjoins, rfl⟩ := map_eq_ok_iff.mp hread
    exact { h with leftJoins := keys_joins (joinsOf_eq_ok_iff.mp hjoins ▸ he) }
  · rintro _ hread
    obtain ⟨joins, hjoins, rfl⟩ := map_eq_ok_iff.mp hread
    exact { h with innerJoins := keys_joins (joinsOf_eq_ok_iff.mp hjoins ▸ he) }
  · rintro _ hread
    obtain ⟨names, -, rfl⟩ := map_eq_ok_iff.mp hread
    exact ⟨h.selects, h.leftJoins, h.innerJoins⟩
  · exact nofun

/-- **Reading.** Whatever is read from a value is expressible. -/
theorem yields_ofJson {v : Json} (hv : v.Distinct) : Yields (ofJson v) Expressible := by
  have hnone : Expressible none := ⟨nofun, List.nodup_nil, List.nodup_nil⟩
  have hsections : ∀ (entries : List (String × Json)) (extras : Extras), (∀ e ∈ entries, e.2.Distinct) →
      extras.Expressible → Yields (entries.foldlM readSection extras) Expressible := by
    intro entries
    induction entries with
    | nil => exact fun extras _ hextras => yields_ok hextras
    | cons e entries ih =>
      intro extras hentries hextras
      obtain ⟨he, hentries⟩ := List.forall_mem_cons.mp hentries
      rw [List.foldlM_cons]
      exact (yields_readSection hextras he).bind fun extras' h => ih extras' hentries h
  cases v with
  | null => exact yields_ok hnone
  | object entries => exact hsections entries none hv.entry hnone
  | bool | number | string | array => exact nofun

/-- Texts may repeat a key, but what is read from them has it once. -/
theorem expressible_of_parse? {text : String} {v : Json} (htext : Json.parse? text = some v) {e : Extras}
    (h : ofJson v = .ok e) : e.Expressible := yields_ofJson (Json.distinct_of_parse? htext) e h

/-! ## Writing -/

/-- A joined item stands in the list of the next ones, or in one of its own. -/
theorem selectEntries_joined (n : Nat) (name : String) (rest : List SelectItem) :
    (∃ names entries, selectEntries (n + 1) rest = (joinedKey, .array names) :: entries ∧
        selectEntries n (.joined name :: rest) = (joinedKey, .array (.string name :: names)) :: entries) ∨
      (∀ names entries, selectEntries (n + 1) rest ≠ (joinedKey, .array names) :: entries) ∧
        selectEntries n (.joined name :: rest) = (joinedKey, .array [.string name]) :: selectEntries (n + 1) rest := by
  rw [selectEntries]
  split
  · case h_1 key names entries hrest =>
    by_cases hkey : key = joinedKey
    · subst hkey
      rw [if_pos rfl]
      exact .inl ⟨names, entries, hrest, rfl⟩
    · rw [if_neg hkey, hrest]
      refine .inr ⟨fun names' entries' heq => ?_, rfl⟩
      exact hkey (Prod.mk.inj (List.cons.inj heq).1).1
  · case h_2 hrest => exact .inr ⟨hrest joinedKey, rfl⟩

/-- **The entries of a select list are read back.** -/
theorem selectsOf_selectEntries {items : List SelectItem} (h : ∀ x ∈ expressions items, isExpression x = true)
    (n : Nat) : selectsOf (.object (selectEntries n items)) = .ok items := by
  induction items generalizing n with
  | nil => rfl
  | cons item items ih =>
    cases item with
    | raw text =>
      exact selectsOf_cons_eq_ok_iff.mpr ⟨_, items, .raw (Json.isPositional_toString n) text, ih h (n + 1), rfl⟩
    | aliased expression name =>
      obtain ⟨hexpression, h⟩ := List.forall_mem_cons.mp h
      exact selectsOf_cons_eq_ok_iff.mpr ⟨_, items, .aliased hexpression name, ih h (n + 1), rfl⟩
    | joined name =>
      have hrest := ih h (n + 1)
      obtain ⟨names, entries, hentries, hwritten⟩ | ⟨-, hwritten⟩ := selectEntries_joined n name items
      · -- the block that is read from the rest grows by one
        rw [hentries] at hrest
        obtain ⟨block, rest, hblock, hread, rfl⟩ := selectsOf_cons_eq_ok_iff.mp hrest
        rw [hwritten]
        cases hblock with
        | @joined _ texts hnames =>
          obtain rfl : names = texts.map .string := hnames
          exact selectsOf_cons_eq_ok_iff.mpr ⟨_, rest, @Brings.joined _ (name :: texts) rfl, hread, rfl⟩
      · rw [hwritten]
        exact selectsOf_cons_eq_ok_iff.mpr ⟨_, items, @Brings.joined _ [name] rfl, hrest, rfl⟩

/-- Where the keys of a select list come from: positions from some number on, expressions, and the reserved key if any
    item is joined. -/
def KeyOf (n : Nat) (items : List SelectItem) (key : String) : Prop :=
  (∃ m, n ≤ m ∧ key = toString m) ∨ key ∈ expressions items ∨ key = joinedKey ∧ ∃ i ∈ items, i.isJoined = true

theorem KeyOf.cons {n : Nat} {items : List SelectItem} {key : String} (h : KeyOf (n + 1) items key)
    (item : SelectItem) : KeyOf n (item :: items) key := by
  obtain ⟨m, hm, rfl⟩ | hexpression | ⟨rfl, i, hi, hjoined⟩ := h
  · exact .inl ⟨m, Nat.le_of_succ_le hm, rfl⟩
  · refine .inr (.inl ?_)
    cases item with
    | raw | joined => exact hexpression
    | aliased => exact List.mem_cons_of_mem _ hexpression
  · exact .inr (.inr ⟨rfl, i, List.mem_cons_of_mem _ hi, hjoined⟩)

theorem keyOf_selectEntries {n : Nat} {items : List SelectItem} :
    ∀ key ∈ (selectEntries n items).map Prod.fst, KeyOf n items key := by
  induction items generalizing n with
  | nil => exact List.forall_mem_nil _
  | cons item items ih =>
    have hrest : ∀ key ∈ (selectEntries (n + 1) items).map Prod.fst, KeyOf n (item :: items) key :=
      fun key hkey => (ih key hkey).cons item
    cases item with
    | raw => exact List.forall_mem_cons.mpr ⟨.inl ⟨n, Nat.le_refl n, rfl⟩, hrest⟩
    | aliased => exact List.forall_mem_cons.mpr ⟨.inr (.inl List.mem_cons_self), hrest⟩
    | joined name =>
      have hblock : KeyOf n (.joined name :: items) joinedKey :=
        .inr (.inr ⟨rfl, .joined name, List.mem_cons_self, rfl⟩)
      obtain ⟨names, entries, hentries, hwritten⟩ | ⟨-, hwritten⟩ := selectEntries_joined n name items
      · rw [hentries] at hrest
        rw [hwritten]
        exact hrest
      · rw [hwritten]
        exact List.forall_mem_cons.mpr ⟨hblock, hrest⟩

theorem Listable.tail {item : SelectItem} {items : List SelectItem} (h : Listable (item :: items)) :
    Listable items := by
  refine ⟨?_, ?_, h.together.tail⟩
  · cases item with
    | raw | joined => exact h.distinct
    | aliased => exact (List.nodup_cons.mp h.distinct).2
  · cases item with
    | raw | joined => exact h.keys
    | aliased => exact (List.forall_mem_cons.mp h.keys).2

section NotMem

variable {items : List SelectItem} (hkeys : ∀ x ∈ expressions items, isExpression x = true) (n : Nat)

include hkeys

/-- A position is not the key of a later entry. -/
theorem position_not_mem_keys : toString n ∉ (selectEntries (n + 1) items).map Prod.fst := by
  intro hkey
  obtain ⟨m, hm, heq⟩ | hexpression | ⟨hjoined, -⟩ := keyOf_selectEntries _ hkey
  · exact Nat.ne_of_lt hm (Json.toString_inj heq)
  · have hposition := isExpression_of_isPositional (Json.isPositional_toString n)
    exact absurd (hkeys _ hexpression) (Bool.eq_false_iff.mp hposition)
  · exact toString_ne_joinedKey n hjoined

/-- Where nothing is joined, the reserved key is not written. -/
theorem joinedKey_not_mem_keys (hnone : ∀ i ∈ items, i.isJoined = false) :
    joinedKey ∉ (selectEntries n items).map Prod.fst := by
  intro hkey
  obtain ⟨m, -, heq⟩ | hexpression | ⟨-, i, hi, hjoined⟩ := keyOf_selectEntries _ hkey
  · exact toString_ne_joinedKey m heq.symm
  · exact absurd (hkeys _ hexpression) (Bool.eq_false_iff.mp isExpression_joinedKey)
  · exact absurd hjoined (Bool.eq_false_iff.mp (hnone i hi))

end NotMem

/-- An expression is a key only where an item is aliased by it. -/
theorem expression_not_mem_keys {items : List SelectItem} {x : String} (hx : isExpression x = true)
    (hnew : x ∉ expressions items) (n : Nat) : x ∉ (selectEntries n items).map Prod.fst := by
  intro hkey
  obtain ⟨m, -, rfl⟩ | hagain | ⟨rfl, -⟩ := keyOf_selectEntries _ hkey
  · have hposition := isExpression_of_isPositional (Json.isPositional_toString m)
    exact absurd hx (Bool.eq_false_iff.mp hposition)
  · exact hnew hagain
  · exact absurd hx (Bool.eq_false_iff.mp isExpression_joinedKey)

/-- **The entries of a select list have distinct keys.** -/
theorem nodup_keys_selectEntries {items : List SelectItem} (h : Listable items) (n : Nat) :
    ((selectEntries n items).map Prod.fst).Nodup := by
  induction items generalizing n with
  | nil => exact List.nodup_nil
  | cons item items ih =>
    have hrest := ih h.tail (n + 1)
    cases item with
    | raw text => exact List.nodup_cons.mpr ⟨position_not_mem_keys h.tail.keys n, hrest⟩
    | aliased expression name =>
      obtain ⟨hnew, -⟩ := List.nodup_cons.mp h.distinct
      have hexpression := h.keys expression List.mem_cons_self
      exact List.nodup_cons.mpr ⟨expression_not_mem_keys hexpression hnew (n + 1), hrest⟩
    | joined name =>
      obtain ⟨names, entries, hentries, hwritten⟩ | ⟨hother, hwritten⟩ := selectEntries_joined n name items
      · rw [hentries] at hrest
        rw [hwritten]
        exact hrest
      · -- no block follows, so by contiguity nothing joined does
        have hnone : ∀ i ∈ items, i.isJoined = false := by
          obtain ⟨name', rest, rfl⟩ | hnone := h.together.next
          · obtain ⟨names, entries, -, hblock⟩ | ⟨-, hblock⟩ := selectEntries_joined (n + 1) name' rest
            · exact absurd hblock (hother _ _)
            · exact absurd hblock (hother _ _)
          · exact hnone
        rw [hwritten]
        exact List.nodup_cons.mpr ⟨joinedKey_not_mem_keys h.tail.keys (n + 1) hnone, hrest⟩

theorem distinct_selectEntries (items : List SelectItem) (n : Nat) : ∀ e ∈ selectEntries n items, e.2.Distinct := by
  induction items generalizing n with
  | nil => exact List.forall_mem_nil _
  | cons item items ih =>
    cases item with
    | raw text => exact List.forall_mem_cons.mpr ⟨Json.distinct_string text, ih (n + 1)⟩
    | aliased expression name => exact List.forall_mem_cons.mpr ⟨Json.distinct_string name, ih (n + 1)⟩
    | joined name =>
      have hrest := ih (n + 1)
      obtain ⟨names, entries, hentries, hwritten⟩ | ⟨-, hwritten⟩ := selectEntries_joined n name items
      · rw [hentries] at hrest
        obtain ⟨hnames, hentries⟩ := List.forall_mem_cons.mp hrest
        rw [hwritten]
        refine List.forall_mem_cons.mpr ⟨.array ?_, hentries⟩
        exact List.forall_mem_cons.mpr ⟨Json.distinct_string name, hnames.item⟩
      · rw [hwritten]
        exact List.forall_mem_cons.mpr ⟨Json.distinct_texts [name], hrest⟩

theorem distinct_joinEntries {joins : List (String × String)} (h : (joins.map Prod.fst).Nodup) :
    (joinEntries joins).Distinct := by
  refine .object ?_ fun e he => ?_
  · rw [List.map_map]
    exact h
  · obtain ⟨j, -, rfl⟩ := List.mem_map.mp he
    exact Json.distinct_string j.2

theorem distinct_toJson {e : Extras} (h : e.Expressible) : e.toJson.Distinct := by
  have hjoins : ∀ part ∈ [("leftJoins", joinEntries e.leftJoins), ("innerJoins", joinEntries e.innerJoins),
      ("groupBys", Json.array (e.groupBys.map .string))], part.2.Distinct := by
    refine List.forall_mem_cons.mpr ⟨distinct_joinEntries h.leftJoins, ?_⟩
    refine List.forall_mem_cons.mpr ⟨distinct_joinEntries h.innerJoins, ?_⟩
    exact List.forall_mem_singleton.mpr (Json.distinct_texts e.groupBys)
  rw [toJson]
  cases hselects : e.selects with
  | none => exact .object (show ["leftJoins", "innerJoins", "groupBys"].Nodup by decide) hjoins
  | some items =>
    have hitems := h.selects items hselects
    refine .object (show ["selects", "leftJoins", "innerJoins", "groupBys"].Nodup by decide) ?_
    refine List.forall_mem_cons.mpr ⟨.object ?_ ?_, hjoins⟩
    · exact nodup_keys_selectEntries hitems 0
    · exact distinct_selectEntries items 0

theorem foldlM_readSection {extras extras' : Extras} {e : String × Json} (h : readSection extras e = .ok extras')
    (entries : List (String × Json)) :
    (e :: entries).foldlM readSection extras = entries.foldlM readSection extras' := by
  rw [List.foldlM_cons, h]
  rfl

/-- **Writing.** Expressible extras are read back from their JSON form. -/
theorem ofJson_toJson {e : Extras} (h : e.Expressible) : ofJson e.toJson = .ok e := by
  obtain ⟨selects, leftJoins, innerJoins, groupBys⟩ := e
  have hleft (extras : Extras) :
      readSection extras ("leftJoins", joinEntries leftJoins) = .ok { extras with leftJoins := leftJoins } :=
    map_eq_ok_iff.mpr ⟨leftJoins, joinsOf_eq_ok_iff.mpr rfl, rfl⟩
  have hinner (extras : Extras) :
      readSection extras ("innerJoins", joinEntries innerJoins) = .ok { extras with innerJoins := innerJoins } :=
    map_eq_ok_iff.mpr ⟨innerJoins, joinsOf_eq_ok_iff.mpr rfl, rfl⟩
  have hgroupBys (extras : Extras) :
      readSection extras ("groupBys", .array (groupBys.map .string)) = .ok { extras with groupBys := groupBys } :=
    map_eq_ok_iff.mpr ⟨groupBys, groupBysOf_texts groupBys, rfl⟩
  have hrest (selects : Option (List SelectItem)) :
      [("leftJoins", joinEntries leftJoins), ("innerJoins", joinEntries innerJoins),
        ("groupBys", .array (groupBys.map .string))].foldlM readSection ⟨selects, [], [], []⟩ =
        .ok ⟨selects, leftJoins, innerJoins, groupBys⟩ := by
    rw [foldlM_readSection (hleft _), foldlM_readSection (hinner _), foldlM_readSection (hgroupBys _)]
    rfl
  cases selects with
  | none => exact hrest Option.none
  | some items =>
    have hselects : readSection none ("selects", .object (selectEntries 0 items)) = .ok ⟨some items, [], [], []⟩ :=
      map_eq_ok_iff.mpr ⟨items, selectsOf_selectEntries (h.selects items rfl).keys 0, rfl⟩
    exact (foldlM_readSection hselects _).trans (hrest (some items))

/-! ## Result -/

/-- **What the JSON form can say.** Extras are read from some value exactly when they are expressible, and this is so
    exactly when their own JSON form is a value and is read back to them. Values are those in which no mapping has a key
    twice, as is every value that is read from a text (`Json.distinct_of_parse?`), even if the text repeats a key. So a
    text, too, says nothing but expressible extras. -/
theorem read_iff_expressible (e : Extras) :
    ((∃ v : Json, v.Distinct ∧ ofJson v = .ok e) ↔ e.Expressible) ∧
      (e.toJson.Distinct ∧ ofJson e.toJson = .ok e ↔ e.Expressible) ∧
      ∀ (text : String) (v : Json), Json.parse? text = some v → ofJson v = .ok e → e.Expressible := by
  have hread : ∀ v : Json, v.Distinct ∧ ofJson v = .ok e → e.Expressible := fun v h => yields_ofJson h.1 e h.2
  have hwrite (h : e.Expressible) : e.toJson.Distinct ∧ ofJson e.toJson = .ok e :=
    ⟨distinct_toJson h, ofJson_toJson h⟩
  refine ⟨⟨?_, ?_⟩, ⟨hread _, hwrite⟩, ?_⟩
  · exact fun ⟨v, h⟩ => hread v h
  · exact fun h => ⟨e.toJson, hwrite h⟩
  · exact fun text v htext h => expressible_of_parse? htext h

end Extras

end Criteria
