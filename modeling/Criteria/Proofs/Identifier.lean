import Criteria.Record
import Criteria.Stored
import Criteria.Proofs.OrderedMap
import Criteria.Proofs.Uuid

/-!
# `Criteria.Proofs.Identifier` — what becomes of an identifier that is stored

An identifier is stored as its value, and nothing beside it tells which kind of value it is. Reading takes the first
kind that fits. Null, integers and UUIDs come back as they were. A text comes back as a text unless it spells a UUID;
then it comes back as that UUID, which is another key.

## Contents
- **Storage.** What each kind of value reads back as; `Identifier.SpellsUuid` singles out the texts that change.
- **Result.** `stored_identifiers_read_back`, and a text that comes back as a UUID.
-/

namespace Criteria.Identifier

/-! ## Storage -/

/-- The identifier is a text, and the text spells a UUID. -/
def SpellsUuid (id : Identifier) : Prop := ∃ s u, id = .text s ∧ Uuid.Spelled u s.toList

theorem signed?_int (n : Int64) : (Json.int n.toInt).signed? = some n := by
  have hlow := n.le_toInt
  have hhigh := n.toInt_lt
  have hfits : Json.fitsSigned n.toInt = true := by
    simp only [Json.fitsSigned, Bool.and_eq_true, decide_eq_true_eq]
    omega
  rw [Json.int, Json.signed?, if_pos hfits, Int64.ofInt_toInt]

theorem ofJson?_text_of_spelled {s : String} {u : Uuid} (h : u.Spelled s.toList) :
    ofJson? (toStored (.text s)) = some (.uuid u) := by
  rw [toStored, ofJson?, Uuid.ofText?_eq_some_iff.mpr h]
  rfl

/-- An identifier that is no spelling of a UUID reads back as it was. -/
theorem ofJson?_toStored {id : Identifier} (h : ¬ id.SpellsUuid) : ofJson? id.toStored = some id := by
  cases id with
  | null => rfl
  | integer n =>
    show (Json.int n.toInt).signed?.map integer = _
    rw [signed?_int]
    rfl
  | uuid u =>
    rw [toStored, Uuid.toStored, ofJson?, u.ofText?_text]
    rfl
  | text s =>
    have hnone : Uuid.ofText? s = none := by
      cases hread : Uuid.ofText? s with
      | none => rfl
      | some u => exact absurd ⟨s, u, rfl, Uuid.ofText?_eq_some_iff.mp hread⟩ h
    rw [toStored, ofJson?, hnone]
    rfl

/-- What is stored always reads back: as it was, or as the UUID that it spells. -/
theorem ofJson?_toStored_eq_iff {id id' : Identifier} :
    ofJson? id.toStored = some id' ↔
      (id' = id ∧ ¬ id.SpellsUuid) ∨ ∃ s u, id = .text s ∧ Uuid.Spelled u s.toList ∧ id' = .uuid u := by
  by_cases h : id.SpellsUuid
  · obtain ⟨s, u, rfl, hspelled⟩ := h
    rw [ofJson?_text_of_spelled hspelled]
    constructor
    · rintro ⟨⟩
      exact .inr ⟨s, u, rfl, hspelled, rfl⟩
    · rintro (⟨-, hnot⟩ | ⟨_, u', ⟨⟩, hspelled', rfl⟩)
      · exact absurd ⟨s, u, rfl, hspelled⟩ hnot
      · -- a text spells one UUID at most, because reading it has one result
        have hsame := Uuid.ofText?_eq_some_iff.mpr hspelled
        rw [Uuid.ofText?_eq_some_iff.mpr hspelled'] at hsame
        rw [Option.some.inj hsame]
  · rw [ofJson?_toStored h]
    constructor
    · rintro ⟨⟩
      exact .inl ⟨rfl, h⟩
    · rintro (⟨rfl, -⟩ | ⟨s, u, hid, hspelled, -⟩)
      · rfl
      · exact absurd ⟨s, u, hid, hspelled⟩ h

/-! ## Result -/

/-- **Identifiers survive storage, but for texts that spell a UUID.** The JSON value of an identifier is its stored
    form. It reads back as the same identifier exactly when the identifier is no text that spells a UUID, and such a
    text reads back as the UUID. So an identifier finds in every index what it found before it was stored, unless it is
    such a text. -/
theorem stored_identifiers_read_back (id : Identifier) :
    id.toJson = id.toStored ∧
      (∀ id', ofJson? id.toStored = some id' ↔
        (id' = id ∧ ¬ id.SpellsUuid) ∨ ∃ s u, id = .text s ∧ Uuid.Spelled u s.toList ∧ id' = .uuid u) ∧
      ((∀ (ρ : Type) (k : Keyed ρ), (ofJson? id.toStored).bind k.get? = k.get? id) ↔ ¬ id.SpellsUuid) := by
  refine ⟨by cases id <;> rfl, fun id' => ofJson?_toStored_eq_iff, ?_, ?_⟩
  · rintro hfinds ⟨s, u, rfl, hspelled⟩
    have hfound := hfinds Unit (IndexedMap.empty.set (.text s) ())
    rw [ofJson?_text_of_spelled hspelled] at hfound
    rw [Option.bind_some, IndexedMap.get?_eq, IndexedMap.get?_eq, IndexedMap.toOrderedMap_set, OrderedMap.get?_set_self,
      OrderedMap.get?_set, if_neg nofun] at hfound
    cases hfound
  · intro h ρ k
    rw [ofJson?_toStored h]
    rfl

/-- A text of 32 digits comes back as a UUID, although the UUID itself is written with hyphens. It no longer finds what
    is kept under the text. -/
theorem text_of_digits_reads_back_as_uuid :
    let id : Identifier := .text "550e8400e29b41d4a716446655440000"
    let k : Keyed Nat := IndexedMap.empty.set id 7
    id.toStored = .string "550e8400e29b41d4a716446655440000" ∧
      (∃ u, ofJson? id.toStored = some (.uuid u) ∧ u.text = "550e8400-e29b-41d4-a716-446655440000") ∧
      ofJson? id.toStored ≠ some id ∧
      k.get? id = some 7 ∧ (ofJson? id.toStored).bind k.get? = none := by
  intro id k
  refine ⟨rfl, ⟨_, rfl, by decide⟩, by decide, rfl, by decide⟩

end Criteria.Identifier
