import Criteria.Condition.Reader
import Criteria.Condition.Wire
import Criteria.Proofs.Condition

/-!
# `Criteria.Proofs.WireForm` — what the JSON form of conditions can say

Property names share the keys of a mapping with the reserved keys and with positions, so not every
condition has a JSON form. This module pins down the conditions that are read from some value, and shows
that the JSON form of these reads back to them.

## Contents
- **Keys.** Reserved keys are names, and every name that is not reserved stands for a property.
- **Expressible conditions.** `Readable` judges one node, `Expressible` a condition at every depth.
- **Entries.** A list of entries is read entry by entry, and a wrapped entry is read as the entry in it.
- **Reading.** `Yields`: what holds of every result of a fallible reading. There is one lemma for each kind of entry,
  and with them everything that is read is expressible (`entryExpressible`).
- **Writing.** `ofEntry_toJson`: an expressible condition is read back from its own mapping.
- **Result.** `ofJson_exact`.
-/

namespace Criteria

/-! ## Keys -/

/-- A text is reserved for no keyword exactly when it is no reserved key. -/
theorem Keyword.ofKey?_eq_none_iff {text : String} :
    Keyword.ofKey? text = none ↔ ∀ k : Keyword, k.key ≠ text := by
  constructor
  · rintro h k rfl
    rw [Keyword.ofKey?_key] at h
    cases h
  · intro h
    cases hk : Keyword.ofKey? text with
    | none => rfl
    | some k => exact absurd (Keyword.key_of_ofKey? hk) (h k)

instance (text : String) : Decidable (∀ k : Keyword, k.key ≠ text) :=
  decidable_of_iff _ Keyword.ofKey?_eq_none_iff

/-- A reserved key is never a position. -/
theorem Keyword.isPositional_key (k : Keyword) : Json.isPositional k.key = false := by
  rcases k with ⟨c, o⟩ | _ | _ | _ | _ | _ | ⟨c, o⟩
  all_goals try cases c
  all_goals try cases o
  all_goals decide

namespace EntryKey

/-- A key as it stands in a mapping: a name is never a position in disguise. -/
def Proper : EntryKey → Prop
  | .position => True
  | .name text => Json.isPositional text = false

theorem ofText_of_name {text : String} (h : Json.isPositional text = false) :
    ofText text = .name text := by
  rw [ofText, h]; rfl

theorem proper_ofText (text : String) : (ofText text).Proper := by
  unfold ofText
  split
  · trivial
  · rename_i h
    exact Bool.eq_false_iff.mpr h

end EntryKey

namespace Condition

/-! ## Expressible conditions -/

/-- The nodes that the JSON form can say. A property name must not be mistaken for a position and, where it
    stands beside a bare value, for a reserved key; a bare value must not be mistaken for further entries. -/
def Readable : Condition → Prop
  | .bare property value =>
    (∀ k : Keyword, k.key ≠ property) ∧ Json.isPositional property = false ∧ value.isObject = false
  | .like property pattern => Json.isPositional property = false ∧ pattern.isComposite = false
  | .compare _ _ property value => Json.isPositional property = false ∧ value.isComposite = false
  | .inList property _ => Json.isPositional property = false
  | .notInList property _ => Json.isPositional property = false
  | .isNull _ | .isNotNull _ | .group _ _ _ => True

instance : DecidablePred Readable
  | .bare _ _ => inferInstanceAs (Decidable (_ ∧ _ = false ∧ _ = false))
  | .like _ _ | .compare _ _ _ _ => inferInstanceAs (Decidable (_ = false ∧ _ = false))
  | .inList _ _ | .notInList _ _ => inferInstanceAs (Decidable (_ = false))
  | .isNull _ | .isNotNull _ | .group _ _ _ => inferInstanceAs (Decidable True)

/-- The conditions whose nodes at every depth can be said in the JSON form. -/
def Expressible (c : Condition) : Prop := ∀ n ∈ c.nodes, n.Readable

instance (c : Condition) : Decidable c.Expressible := inferInstanceAs (Decidable (∀ n ∈ c.nodes, n.Readable))

theorem expressible_of_atom {c : Condition} {a : Atom} (h : c.atom? = some a) :
    c.Expressible ↔ c.Readable := by
  rw [Expressible, nodes_of_atom h, List.forall_mem_singleton]

theorem expressible_group {clause : Clause} {connective : Connective} {members : List Condition} :
    (group clause connective members).Expressible ↔ ∀ c ∈ members, c.Expressible := by
  rw [Expressible, nodes, List.forall_mem_cons]
  constructor
  · rintro ⟨-, h⟩ c hc n hn
    exact h n (mem_nodesIn.mpr ⟨c, hc, hn⟩)
  · intro h
    refine ⟨trivial, fun n hn => ?_⟩
    obtain ⟨c, hc, hcn⟩ := mem_nodesIn.mp hn
    exact h c hc n hcn

/-! ## Entries -/

/-- Reads an entry of a mapping. -/
def ofPair (e : String × Json) : Except Fault Condition := ofEntry (.ofText e.1) e.2

/-- The entries of a mapping are read one after the other, up to the first failure. -/
theorem ofEntries_eq_mapM (entries : List (String × Json)) : ofEntries entries = entries.mapM ofPair := by
  induction entries with
  | nil => rfl
  | cons e rest ih =>
    obtain ⟨text, value⟩ := e
    rw [ofEntries, ih, List.mapM_cons]
    rfl

/-- The items of an array are read one after the other, up to the first failure. -/
theorem ofItems_eq_mapM (items : List Json) : ofItems items = items.mapM (ofEntry .position) := by
  induction items with
  | nil => rfl
  | cons v rest ih =>
    rw [ofItems, ih, List.mapM_cons]
    rfl

theorem ofPair_of_isPositional {index : String} (h : Json.isPositional index = true) (v : Json) :
    ofPair (index, v) = ofEntry .position v := by
  have hkey : EntryKey.ofText index = .position := if_pos h
  rw [ofPair, hkey]

/-- A mapping with one entry is read at a position as the entry. -/
theorem ofEntry_object (e : String × Json) : ofEntry .position (.object [e]) = ofPair e := by
  rw [ofEntry, ofPair]

/-- An array with one item is read at a position as the item. -/
theorem ofEntry_array (v : Json) : ofEntry .position (.array [v]) = ofEntry .position v := by
  rw [ofEntry]

/-- The members of a group are read as a search is. -/
theorem ofPair_of_group {text : String} {clause : Clause} {connective : Connective}
    (hkey : Keyword.ofKey? text = some (.group clause connective)) {v : Json} (hv : v.isComposite = true) :
    ofPair (text, v) = (ofJson v).map (.group clause connective) := by
  have hname : EntryKey.ofText text = .name text := by
    rw [← Keyword.key_of_ofKey? hkey]
    exact EntryKey.ofText_of_name (Keyword.isPositional_key _)
  rw [ofPair, hname, ofEntry, hkey]
  cases v with
  | object entries => rfl
  | array items => rfl
  | null | bool | number | string => exact absurd hv (by simp [Json.isComposite, Json.isArray, Json.isObject])

/-! ## Reading -/

/-- Whatever a fallible reading gives has the property; a rejection gives nothing. -/
def Yields {α : Type} (x : Except Fault α) (P : α → Prop) : Prop := ∀ a, x = .ok a → P a

section Yields

variable {α β : Type} {P : α → Prop} {Q : β → Prop}

theorem yields_ok {a : α} (h : P a) : Yields (.ok a) P := by
  rintro b ⟨⟩
  exact h

theorem yields_reject (cause : SpecificationFault) : Yields (reject cause) P := nofun

theorem yields_unless {flawed : Bool} {cause : SpecificationFault} {x : Except Fault α}
    (h : flawed = false → Yields x P) : Yields (if flawed then reject cause else x) P := by
  cases flawed with
  | true => exact yields_reject cause
  | false => exact h rfl

theorem Yields.bind {x : Except Fault α} {f : α → Except Fault β} (hx : Yields x P)
    (hf : ∀ a, P a → Yields (f a) Q) : Yields (x >>= f) Q := by
  intro b hb
  cases x with
  | error fault => cases hb
  | ok a => exact hf a (hx a rfl) b hb

theorem Yields.map {x : Except Fault α} {f : α → β} (hx : Yields x P) (hf : ∀ a, P a → Q (f a)) :
    Yields (x.map f) Q := by
  intro b hb
  cases x with
  | error fault => cases hb
  | ok a =>
    obtain rfl := Except.ok.inj hb
    exact hf a (hx a rfl)

/-- What holds of every item that is read holds of all items of a list that is read. -/
theorem Yields.mapM {read : α → Except Fault β} {as : List α} (h : ∀ a ∈ as, Yields (read a) Q) :
    Yields (as.mapM read) fun bs => ∀ b ∈ bs, Q b := by
  induction as with
  | nil => exact yields_ok (List.forall_mem_nil _)
  | cons a as ih =>
    obtain ⟨ha, has⟩ := List.forall_mem_cons.mp h
    rw [List.mapM_cons]
    refine ha.bind fun b hb => (ih has).bind fun bs hbs => ?_
    exact yields_ok (List.forall_mem_cons.mpr ⟨hb, hbs⟩)

end Yields

/-- The property of an operator is never a position. -/
theorem yields_namedOperand (keyword : Keyword) (v : Json) :
    Yields (namedOperand keyword v) fun named => Json.isPositional named.1 = false := by
  unfold namedOperand
  split
  · exact yields_unless fun hname => yields_ok hname
  all_goals exact yields_reject _

theorem yields_ofBare {property : String} (hkey : ∀ k : Keyword, k.key ≠ property)
    (hname : Json.isPositional property = false) (value : Json) :
    Yields (ofBare property value) Expressible := by
  refine yields_unless fun hvalue => yields_ok ?_
  have hreadable : (bare property value).Readable := ⟨hkey, hname, hvalue⟩
  cases value <;> exact (expressible_of_atom rfl).mpr hreadable

theorem yields_ofLike (value : Json) : Yields (ofLike value) Expressible := by
  refine (yields_namedOperand _ value).bind ?_
  rintro ⟨property, pattern⟩ hname
  refine yields_unless fun hpattern => yields_ok ?_
  exact (expressible_of_atom rfl).mpr ⟨hname, hpattern⟩

theorem yields_ofInList (value : Json) : Yields (ofInList value) Expressible := by
  refine (yields_namedOperand _ value).bind ?_
  rintro ⟨property, operand⟩ hname
  exact yields_ok ((expressible_of_atom rfl).mpr hname)

theorem yields_ofNotInList (value : Json) : Yields (ofNotInList value) Expressible := by
  refine (yields_namedOperand _ value).bind ?_
  rintro ⟨property, operand⟩ hname
  exact yields_ok ((expressible_of_atom rfl).mpr hname)

theorem yields_ofNullCheck (keyword : Keyword) {check : String → Condition}
    (hcheck : ∀ property, (check property).Expressible) (value : Json) :
    Yields (ofNullCheck keyword check value) Expressible := by
  unfold ofNullCheck
  split
  · exact yields_ok (hcheck _)
  · exact yields_reject _

theorem yields_ofCompare (clause : Clause) (comparison : Comparison) (value : Json) :
    Yields (ofCompare clause comparison value) Expressible := by
  refine (yields_namedOperand _ value).bind ?_
  rintro ⟨property, operand⟩ hname
  refine yields_unless fun hoperand => yields_ok ?_
  exact (expressible_of_atom rfl).mpr ⟨hname, hoperand⟩

/-- Below any key of a mapping, and at any position, the value is read as an expressible condition. -/
def EntryExpressible (v : Json) : Prop := ∀ key : EntryKey, key.Proper → Yields (ofEntry key v) Expressible

theorem yields_ofItems {items : List Json} (h : ∀ v ∈ items, EntryExpressible v) :
    Yields (ofItems items) fun cs => ∀ c ∈ cs, c.Expressible := by
  rw [ofItems_eq_mapM]
  exact Yields.mapM fun v hv => h v hv .position trivial

theorem yields_ofEntries {entries : List (String × Json)} (h : ∀ e ∈ entries, EntryExpressible e.2) :
    Yields (ofEntries entries) fun cs => ∀ c ∈ cs, c.Expressible := by
  rw [ofEntries_eq_mapM]
  exact Yields.mapM fun e he => h e he (.ofText e.1) (EntryKey.proper_ofText e.1)

/-- A scalar says nothing at a position. -/
theorem yields_position_scalar {v : Json} (h : v.isComposite = false) : Yields (ofEntry .position v) Expressible := by
  cases v with
  | array | object => exact absurd h nofun
  | null | bool | number | string => exact yields_reject _

/-- An array at a position must hold one item. -/
theorem yields_position_array {items : List Json} (h : ∀ v ∈ items, EntryExpressible v) :
    Yields (ofEntry .position (.array items)) Expressible := by
  match items with
  | [] | _ :: _ :: _ => exact yields_reject _
  | [v] =>
    rw [ofEntry_array]
    exact h v List.mem_cons_self .position trivial

/-- A mapping at a position must hold one entry. -/
theorem yields_position_object {entries : List (String × Json)} (h : ∀ e ∈ entries, EntryExpressible e.2) :
    Yields (ofEntry .position (.object entries)) Expressible := by
  match entries with
  | [] | _ :: _ :: _ => exact yields_reject _
  | [e] =>
    rw [ofEntry_object]
    exact h e List.mem_cons_self (.ofText e.1) (EntryKey.proper_ofText e.1)

/-- A name that is no keyword is a property, and a keyword other than those of groups has a reader of its own. So only
    groups depend on what is inside. -/
theorem yields_name {text : String} {v : Json} (hname : Json.isPositional text = false)
    (hgroup : ∀ clause connective, Keyword.ofKey? text = some (.group clause connective) →
      Yields (ofEntry (.name text) v) Expressible) : Yields (ofEntry (.name text) v) Expressible := by
  -- each keyword has its own reader, and only that of groups looks at entries inside
  cases hkey : Keyword.ofKey? text with
  | none =>
    rw [ofEntry, hkey]
    exact yields_ofBare (Keyword.ofKey?_eq_none_iff.mp hkey) hname v
  | some keyword =>
    cases keyword with
    | group clause connective => exact hgroup clause connective hkey
    | like =>
      rw [ofEntry, hkey]
      exact yields_ofLike v
    | inList =>
      rw [ofEntry, hkey]
      exact yields_ofInList v
    | notInList =>
      rw [ofEntry, hkey]
      exact yields_ofNotInList v
    | isNull =>
      rw [ofEntry, hkey]
      have hcheck (property : String) : (isNull property).Expressible := (expressible_of_atom rfl).mpr trivial
      exact yields_ofNullCheck .isNull hcheck v
    | isNotNull =>
      rw [ofEntry, hkey]
      have hcheck (property : String) : (isNotNull property).Expressible := (expressible_of_atom rfl).mpr trivial
      exact yields_ofNullCheck .isNotNull hcheck v
    | compare clause comparison =>
      rw [ofEntry, hkey]
      exact yields_ofCompare clause comparison v

/-- **Reading.** Whatever is read from a value, at a position or below a name, is expressible. -/
theorem entryExpressible (v : Json) : EntryExpressible v := by
  -- by induction on the value: what stands at a position and the members of a group are parts of it
  induction v using Json.induction with
  | scalar v hscalar =>
    intro key hkey
    cases key with
    | position => exact yields_position_scalar hscalar
    | name text =>
      refine yields_name hkey fun clause connective hgroup => ?_
      rw [ofEntry, hgroup]
      cases v with
      | array | object => exact absurd hscalar nofun
      | null | bool | number | string => exact yields_reject _
  | array items ih =>
    intro key hkey
    cases key with
    | position => exact yields_position_array ih
    | name text =>
      refine yields_name hkey fun clause connective hgroup => ?_
      rw [ofEntry, hgroup]
      exact (yields_ofItems ih).map fun members h => expressible_group.mpr h
  | object entries ih =>
    intro key hkey
    cases key with
    | position => exact yields_position_object ih
    | name text =>
      refine yields_name hkey fun clause connective hgroup => ?_
      rw [ofEntry, hgroup]
      exact (yields_ofEntries ih).map fun members h => expressible_group.mpr h

theorem yields_ofJson (v : Json) : Yields (ofJson v) fun cs => ∀ c ∈ cs, c.Expressible := by
  cases v with
  | object entries => exact yields_ofEntries fun e _ => entryExpressible e.2
  | array items => exact yields_ofItems fun v _ => entryExpressible v
  | null | bool | number | string => exact yields_reject _

/-! ## Writing -/

/-- A mapping with a reserved key is read by its keyword. -/
theorem ofEntry_key (k : Keyword) (value : Json) :
    ofEntry .position (entry k.key value) = ofEntry (.name k.key) value := by
  rw [entry, ofEntry, EntryKey.ofText_of_name k.isPositional_key]

theorem namedOperand_entry (keyword : Keyword) {property : String}
    (h : Json.isPositional property = false) (operand : Json) :
    namedOperand keyword (entry property operand) = .ok (property, operand) := by
  rw [entry, namedOperand, if_neg (Bool.eq_false_iff.mp h)]

/-- **Leaves.** A readable leaf is read back from its mapping. -/
theorem ofEntry_toJson_of_atom {c : Condition} {a : Atom} (hatom : c.atom? = some a) (h : c.Readable) :
    ofEntry .position c.toJson = .ok c := by
  cases c with
  | bare property value =>
    -- here the property itself is the key of the mapping, so it has to be told from keywords and positions
    obtain ⟨hkey, hname, hvalue⟩ := h
    rw [toJson, entry, ofEntry, EntryKey.ofText_of_name hname, ofEntry,
      Keyword.ofKey?_eq_none_iff.mpr hkey]
    exact if_neg (Bool.eq_false_iff.mp hvalue)
  | group clause connective members => exact absurd hatom nofun
  | like property pattern =>
    obtain ⟨hname, hpattern⟩ := h
    rw [toJson, ofEntry_key, ofEntry, Keyword.ofKey?_key]
    simp only [ofLike, namedOperand_entry _ hname]
    exact if_neg (Bool.eq_false_iff.mp hpattern)
  | inList property values =>
    rw [toJson, ofEntry_key, ofEntry, Keyword.ofKey?_key]
    simp only [ofInList, namedOperand_entry _ h]
    rfl
  | notInList property values =>
    rw [toJson, ofEntry_key, ofEntry, Keyword.ofKey?_key]
    simp only [ofNotInList, namedOperand_entry _ h]
    rfl
  | isNull property => rw [toJson, ofEntry_key, ofEntry, Keyword.ofKey?_key]; rfl
  | isNotNull property => rw [toJson, ofEntry_key, ofEntry, Keyword.ofKey?_key]; rfl
  | compare clause comparison property value =>
    obtain ⟨hname, hvalue⟩ := h
    rw [toJson, ofEntry_key, ofEntry, Keyword.ofKey?_key]
    simp only [ofCompare, namedOperand_entry _ hname]
    exact if_neg (Bool.eq_false_iff.mp hvalue)

/-- **Writing.** An expressible condition is read back from its own mapping, and a list of them from the
    mappings of its members. -/
theorem ofEntry_toJson :
    (∀ c : Condition, c.Expressible → ofEntry .position c.toJson = .ok c) ∧
      ∀ cs : List Condition, (∀ c ∈ cs, c.Expressible) → ofItems (toItems cs) = .ok cs := by
  refine tree_induction ?atom ?group ?nil ?cons
  case atom =>
    intro c a hatom h
    exact ofEntry_toJson_of_atom hatom ((expressible_of_atom hatom).mp h)
  case group =>
    intro clause connective members ih h
    have hmembers := ih (expressible_group.mp h)
    rw [toJson, ofEntry_key, ofEntry, Keyword.ofKey?_key]
    exact congrArg (Except.map (group clause connective)) hmembers
  case nil =>
    intro _
    rfl
  case cons =>
    intro c cs ih ihs h
    obtain ⟨hc, hcs⟩ := List.forall_mem_cons.mp h
    rw [toItems, ofItems, ih hc, ihs hcs]
    rfl

/-! ## Result -/

/-- **The image of the reader.** A search is read from some value exactly when all its conditions are
    expressible, and these are the searches that are read back from their own JSON form. -/
theorem ofJson_exact (cs : List Condition) :
    ((∃ v, ofJson v = .ok cs) ↔ ∀ c ∈ cs, c.Expressible) ∧
      (ofJson (searchToJson cs) = .ok cs ↔ ∀ c ∈ cs, c.Expressible) := by
  have hread : ∀ v, ofJson v = .ok cs → ∀ c ∈ cs, c.Expressible := fun v h => yields_ofJson v cs h
  have hwrite : (∀ c ∈ cs, c.Expressible) → ofJson (searchToJson cs) = .ok cs := ofEntry_toJson.2 cs
  constructor
  · exact ⟨fun ⟨v, h⟩ => hread v h, fun h => ⟨searchToJson cs, hwrite h⟩⟩
  · exact ⟨hread _, hwrite⟩

-- a reserved key may name the property of an operator, and lists may be empty
example :
    let cs := [.inList "__LIKE__" [], .group .having .or [], .group .restriction .and [.bare "" (.array [])]]
    (∀ c ∈ cs, c.Expressible) ∧ ofJson (searchToJson cs) = .ok cs := by
  exact ⟨by decide, rfl⟩

-- a bare property with a reserved key for its name is read as the operator
example :
    let c := Condition.bare "__IS_NULL__" (.string "name")
    ¬ c.Expressible ∧ ofJson (searchToJson [c]) = .ok [.isNull "name"] := by
  exact ⟨by decide, rfl⟩

end Condition

end Criteria
