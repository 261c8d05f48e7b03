import Criteria.Json.Reader
import Criteria.Proofs.Lists
import Criteria.Proofs.OrderedMap

/-!
# `Criteria.Proofs.DistinctKeys` — values in which no key stands twice

Entries of a mapping are a list, and a text can write a key twice. What is read from a text never has it twice, at any
depth: a repeated key replaces the entry that is there.

## Contents
- **Values.** `Json.Distinct`, and what it says about the parts of a value.
- **Tokens.** Scalar tokens hold no composite values (`flat_of_tokens?`): one character keeps this, and so a text does.
- **Reading.** `Reading.Distinct` is the invariant of the stack of open values. `distinct_step` is one token, and
  `distinct_of_parse?` a whole text.
-/

namespace Criteria.Json

/-! ## Values -/

/-- A value in which no mapping has a key twice, at any depth. -/
inductive Distinct : Json → Prop where
  | scalar {v : Json} (h : v.isComposite = false) : Distinct v
  | array {items : List Json} (h : ∀ v ∈ items, Distinct v) : Distinct (.array items)
  | object {entries : List (String × Json)} (hkeys : (entries.map Prod.fst).Nodup)
      (h : ∀ e ∈ entries, Distinct e.2) : Distinct (.object entries)

theorem Distinct.keys {entries : List (String × Json)} (h : Distinct (.object entries)) :
    (entries.map Prod.fst).Nodup := by
  cases h with
  | scalar h => exact absurd h nofun
  | object hkeys => exact hkeys

theorem Distinct.entry {entries : List (String × Json)} (h : Distinct (.object entries)) :
    ∀ e ∈ entries, Distinct e.2 := by
  cases h with
  | scalar h => exact absurd h nofun
  | object _ h => exact h

theorem Distinct.item {items : List Json} (h : Distinct (.array items)) : ∀ v ∈ items, Distinct v := by
  cases h with
  | scalar h => exact absurd h nofun
  | array h => exact h

theorem distinct_string (s : String) : Distinct (.string s) := .scalar rfl

theorem distinct_texts (texts : List String) : Distinct (.array (texts.map .string)) := by
  refine .array fun v hv => ?_
  obtain ⟨s, -, rfl⟩ := List.mem_map.mp hv
  exact distinct_string s

/-- **Entries.** Writing an entry keeps keys distinct, and brings in no other value. -/
theorem distinct_putEntry {entries : List (String × Json)} (h : Distinct (.object entries)) (key : String) {v : Json}
    (hv : Distinct v) : Distinct (.object (putEntry key v entries)) := by
  refine .object (OrderedMap.nodup_keys_set h.keys key v) fun e he => ?_
  obtain rfl | hold := OrderedMap.mem_set he
  · exact hv
  · exact h.entry e hold

/-! ## Tokens -/

/-- A token that is no composite value. -/
def Token.Flat : Token → Prop
  | .scalar v => v.isComposite = false
  | _ => True

/-- The finished tokens of a scan are flat. -/
def Scan.Flat (s : Scan) : Prop := ∀ t ∈ s.reversed, t.Flat

theorem flat_of_bareValue? {run : List Char} {v : Json} (h : bareValue? run = some v) : (Token.scalar v).Flat := by
  unfold bareValue? at h
  split at h
  · exact Option.some.inj h ▸ rfl
  split at h
  · exact Option.some.inj h ▸ rfl
  split at h
  · exact Option.some.inj h ▸ rfl
  obtain ⟨n, -, rfl⟩ := Option.map_eq_some_iff.mp h
  rfl

theorem flat_of_punctuation? {c : Char} {t : Token} (h : punctuation? c = some t) : t.Flat := by
  unfold punctuation? at h
  split at h <;> cases h <;> trivial

theorem flat_begin {done : List Token} (hdone : ∀ t ∈ done, t.Flat) {c : Char} {s : Scan}
    (h : Scan.begin done c = some s) : s.Flat := by
  unfold Scan.begin at h
  split at h
  · exact Option.some.inj h ▸ hdone
  split at h
  · exact Option.some.inj h ▸ hdone
  split at h
  · exact Option.some.inj h ▸ hdone
  obtain ⟨t, ht, rfl⟩ := Option.map_eq_some_iff.mp h
  exact List.forall_mem_cons.mpr ⟨flat_of_punctuation? ht, hdone⟩

theorem flat_step {s s' : Scan} {c : Char} (hs : s.Flat) (h : s.step c = some s') : s'.Flat := by
  obtain ⟨mode, done⟩ := s
  have hdone : ∀ t ∈ done, t.Flat := hs
  unfold Scan.step at h
  -- a character may finish a token: a text, a sign, or a value without quotes, and none of these is composite
  cases mode with
  | between => exact flat_begin hdone h
  | bare run =>
    dsimp only at h
    split at h
    · exact Option.some.inj h ▸ hdone
    · obtain ⟨v, hv, hbegin⟩ := Option.bind_eq_some_iff.mp h
      exact flat_begin (List.forall_mem_cons.mpr ⟨flat_of_bareValue? hv, hdone⟩) hbegin
  | quoted text =>
    dsimp only at h
    split at h
    · split at h
      · exact absurd h nofun
      · exact Option.some.inj h ▸ List.forall_mem_cons.mpr ⟨rfl, hdone⟩
    split at h
    · exact Option.some.inj h ▸ hdone
    split at h
    · exact absurd h nofun
    · obtain ⟨t, -, rfl⟩ := Option.map_eq_some_iff.mp h
      exact hdone
  | escape text =>
    dsimp only at h
    split at h
    · exact Option.some.inj h ▸ hdone
    · simp only [Option.bind_eq_bind, Option.bind_eq_some_iff] at h
      obtain ⟨plain, -, text, -, hdoneome⟩ := h
      exact Option.some.inj hdoneome ▸ hdone
  | unit text digits =>
    dsimp only at h
    split at h
    · exact Option.some.inj h ▸ hdone
    · simp only [Option.bind_eq_bind, Option.bind_eq_some_iff] at h
      obtain ⟨unit, -, text, -, hdoneome⟩ := h
      exact Option.some.inj hdoneome ▸ hdone

/-- **The tokens of a text are flat.** -/
theorem flat_of_tokens? {text : String} {tokens : List Token} (h : tokens? text = some tokens) :
    ∀ t ∈ tokens, t.Flat := by
  obtain ⟨s, hrun, hfinish⟩ := Option.bind_eq_some_iff.mp h
  have hstart : Scan.Flat ⟨.between, []⟩ := List.forall_mem_nil _
  have hs : s.Flat := foldlM_keeps (Q := fun _ => True) (fun _ _ _ hs _ h => flat_step hs h)
    (fun _ _ => trivial) hstart hrun
  obtain ⟨mode, done⟩ := s
  have hdone : ∀ t ∈ done, t.Flat := hs
  unfold Scan.finish at hfinish
  cases mode with
  | between =>
    obtain rfl := Option.some.inj hfinish
    exact fun t ht => hdone t (List.mem_reverse.mp ht)
  | bare run =>
    obtain ⟨v, hv, rfl⟩ := Option.map_eq_some_iff.mp hfinish
    intro t ht
    exact List.forall_mem_cons.mpr ⟨flat_of_bareValue? hv, hdone⟩ t (List.mem_reverse.mp ht)
  | quoted | escape | unit => exact absurd hfinish nofun

/-! ## Reading -/

/-- The finished part of an open value has no key twice. -/
def Frame.Distinct : Frame → Prop
  | .array reversed => ∀ v ∈ reversed, v.Distinct
  | .object entries _ => (Json.object entries).Distinct

/-- All that has been read has no key twice. -/
structure Reading.Distinct (s : Reading) : Prop where
  stack : ∀ f ∈ s.stack, f.Distinct
  result : s.result.Distinct

section Steps

variable {stack : List Frame} {t : Token} {s s' : Reading}

theorem distinct_put (hstack : ∀ f ∈ stack, f.Distinct) {v : Json} (hv : v.Distinct) :
    (Reading.put stack v).Distinct := by
  cases stack with
  | nil => exact ⟨List.forall_mem_nil _, hv⟩
  | cons frame rest =>
    obtain ⟨hframe, hrest⟩ := List.forall_mem_cons.mp hstack
    cases frame with
    | array items =>
      exact ⟨List.forall_mem_cons.mpr ⟨List.forall_mem_cons.mpr ⟨hv, hframe⟩, hrest⟩, .scalar rfl⟩
    | object entries key =>
      exact ⟨List.forall_mem_cons.mpr ⟨distinct_putEntry hframe key hv, hrest⟩, .scalar rfl⟩

theorem distinct_enter (hstack : ∀ f ∈ stack, f.Distinct) {frame : Frame} (hframe : frame.Distinct) {expect : Expect}
    (h : Reading.enter stack frame expect = some s) : s.Distinct := by
  unfold Reading.enter at h
  split at h
  · exact Option.some.inj h ▸ ⟨List.forall_mem_cons.mpr ⟨hframe, hstack⟩, .scalar rfl⟩
  · exact absurd h nofun

theorem distinct_beginValue (hstack : ∀ f ∈ stack, f.Distinct) (ht : t.Flat)
    (h : Reading.beginValue stack t = some s) : s.Distinct := by
  cases t with
  | scalar v => exact Option.some.inj h ▸ distinct_put hstack (.scalar ht)
  | openArray =>
    have hframe : (Frame.array []).Distinct := List.forall_mem_nil _
    exact distinct_enter hstack hframe h
  | openObject =>
    have hframe : (Frame.object [] "").Distinct := Json.Distinct.object List.nodup_nil (List.forall_mem_nil _)
    exact distinct_enter hstack hframe h
  | closeArray | closeObject | comma | colon => exact absurd h nofun

theorem distinct_beginEntry (hstack : ∀ f ∈ stack, f.Distinct) (h : Reading.beginEntry stack t = some s) :
    s.Distinct := by
  unfold Reading.beginEntry at h
  split at h
  · obtain ⟨hframe, hrest⟩ := List.forall_mem_cons.mp hstack
    exact Option.some.inj h ▸ ⟨List.forall_mem_cons.mpr ⟨hframe, hrest⟩, .scalar rfl⟩
  · exact absurd h nofun

theorem distinct_close (hstack : ∀ f ∈ stack, f.Distinct) (h : Reading.close stack t = some s) : s.Distinct := by
  unfold Reading.close at h
  split at h
  · obtain ⟨hframe, hrest⟩ := List.forall_mem_cons.mp hstack
    exact Option.some.inj h ▸ distinct_put hrest (.array fun v hv => hframe v (List.mem_reverse.mp hv))
  · obtain ⟨hframe, hrest⟩ := List.forall_mem_cons.mp hstack
    exact Option.some.inj h ▸ distinct_put hrest hframe
  · exact absurd h nofun

/-- **One token.** -/
theorem distinct_step (hs : s.Distinct) (ht : t.Flat) (h : s.step t = some s') : s'.Distinct := by
  obtain ⟨stack, expect, result⟩ := s
  unfold Reading.step at h
  -- one case for each thing that may be expected: a value, an entry, the end of either, or a sign
  cases expect with
  | value => exact distinct_beginValue hs.stack ht h
  | itemOrClose =>
    dsimp only at h
    split at h
    · exact distinct_close hs.stack h
    · exact distinct_beginValue hs.stack ht h
  | keyOrClose =>
    dsimp only at h
    split at h
    · exact distinct_close hs.stack h
    · exact distinct_beginEntry hs.stack h
  | key => exact distinct_beginEntry hs.stack h
  | colon =>
    dsimp only at h
    split at h
    · exact Option.some.inj h ▸ ⟨hs.stack, .scalar rfl⟩
    · exact absurd h nofun
  | commaOrClose =>
    dsimp only at h
    split at h
    · exact Option.some.inj h ▸ ⟨hs.stack, .scalar rfl⟩
    · exact Option.some.inj h ▸ ⟨hs.stack, .scalar rfl⟩
    · exact distinct_close hs.stack h
  | nothing => exact absurd h nofun

end Steps

/-- **Reading.** In a value that is read from a text no key stands twice. -/
theorem distinct_of_parse? {text : String} {v : Json} (h : parse? text = some v) : v.Distinct := by
  unfold parse? at h
  simp only [Option.bind_eq_bind, Option.bind_eq_some_iff] at h
  obtain ⟨tokens, htokens, final, hrun, hresult⟩ := h
  have hfinal : final.Distinct :=
    foldlM_keeps (fun _ _ _ hs ht h => distinct_step hs ht h) (flat_of_tokens? htokens)
      ⟨List.forall_mem_nil _, .scalar rfl⟩ hrun
  split at hresult
  · exact Option.some.inj hresult ▸ hfinal.result
  · exact absurd hresult nofun

end Criteria.Json
