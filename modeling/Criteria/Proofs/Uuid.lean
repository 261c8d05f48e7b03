import Criteria.Proofs.Lists
import Criteria.Uuid

/-!
# `Criteria.Proofs.Uuid` — which texts spell a UUID

A UUID has many spellings: its digits may be of either case, with or without hyphens between their groups, and the
hyphenated form may stand in braces or behind a scheme. This module says what these spellings are and shows that the
reader accepts exactly them. The written form is one of them.

## Contents
- **Digits.** `Uuid.Digits`: characters that are the digits of a UUID (`ofDigits?_eq_some_iff`).
- **Groups.** `Uuid.Grouped` puts hyphens between the groups of digits, and `Uuid.Hyphenated` is the hyphenated form
  (`readHyphenated_eq_some_iff`).
- **Spellings.** `Uuid.Spelled` lists the four forms; what the reader takes off a text is what they put around the
  digits.
- **Result.** `ofText?_eq_some_iff`, and `spelled_text` for the written form.
-/

namespace Criteria.Uuid

/-! ## Digits -/

/-- The characters are the digits of a UUID, each of either case. -/
def Digits (u : Uuid) (cs : List Char) : Prop :=
  List.Forall₂ (fun c digit => Hexadecimal.value? c = some digit) cs u.digits.toList

theorem Digits.length {u : Uuid} {cs : List Char} (h : u.Digits cs) : cs.length = 32 := by
  rw [h.length_eq, Vector.length_toList]

theorem ofDigits?_eq_some_iff {cs : List Char} {u : Uuid} : ofDigits? cs = some u ↔ u.Digits cs := by
  rw [ofDigits?, Digits, ← mapM_eq_some_iff]
  cases cs.mapM Hexadecimal.value? with
  | none => simp
  | some digits =>
    obtain ⟨⟨⟨own⟩, hown⟩⟩ := u
    by_cases hlen : digits.length = 32
    · simp [hlen]
    · refine iff_of_false (by simp [hlen]) fun heq => hlen ?_
      rw [Option.some.inj heq]
      exact hown

/-! ## Groups -/

/-- `cs` is `digits` with a hyphen behind each group but the last. -/
inductive Grouped : (cs digits : List Char) → Prop where
  | intro {a b c d e : List Char} (ha : a.length = 8) (hb : b.length = 4) (hc : c.length = 4) (hd : d.length = 4)
      (he : e.length = 12) :
      Grouped (a ++ '-' :: (b ++ '-' :: (c ++ '-' :: (d ++ '-' :: e)))) (a ++ b ++ c ++ d ++ e)

theorem withoutHyphens?_eq_some_iff {cs digits : List Char} :
    withoutHyphens? cs = some digits ↔ Grouped cs digits := by
  constructor
  · intro h
    rw [withoutHyphens?] at h
    split at h
    · next hcs =>
      obtain ⟨hlen, h₈, h₁₃, h₁₈, h₂₃⟩ := hcs
      obtain rfl := Option.some.inj h
      -- each hyphen splits what is left behind the one before it
      have hfirst : cs = cs.take 8 ++ '-' :: cs.drop 9 := eq_around cs 8 h₈
      have hsecond : cs.drop 9 = (cs.drop 9).take 4 ++ '-' :: cs.drop 14 := by
        simpa using eq_around (cs.drop 9) 4 (by simpa using h₁₃)
      have hthird : cs.drop 14 = (cs.drop 14).take 4 ++ '-' :: cs.drop 19 := by
        simpa using eq_around (cs.drop 14) 4 (by simpa using h₁₈)
      have hfourth : cs.drop 19 = (cs.drop 19).take 4 ++ '-' :: cs.drop 24 := by
        simpa using eq_around (cs.drop 19) 4 (by simpa using h₂₃)
      have hlengths : (cs.take 8).length = 8 ∧ ((cs.drop 9).take 4).length = 4 ∧ ((cs.drop 14).take 4).length = 4 ∧
          ((cs.drop 19).take 4).length = 4 ∧ (cs.drop 24).length = 12 := by
        simp [hlen]
      obtain ⟨ha, hb, hc, hd, he⟩ := hlengths
      have hgrouped := Grouped.intro ha hb hc hd he
      rwa [← hfourth, ← hthird, ← hsecond, ← hfirst] at hgrouped
    · cases h
  · rintro ⟨ha, hb, hc, hd, he⟩
    rw [withoutHyphens?, if_pos]
    · simp (disch := omega) [List.drop_append, List.drop_eq_nil_of_le, ha, hb, hc, hd]
    · simp [ha, hb, hc, hd, he]

/-- The digits of a UUID with hyphens between their groups. -/
def Hyphenated (u : Uuid) (cs : List Char) : Prop := ∃ digits, Grouped cs digits ∧ u.Digits digits

theorem readHyphenated_eq_some_iff {cs : List Char} {u : Uuid} :
    (withoutHyphens? cs).bind ofDigits? = some u ↔ u.Hyphenated cs := by
  simp only [Option.bind_eq_some_iff, withoutHyphens?_eq_some_iff, ofDigits?_eq_some_iff]
  rfl

namespace Hyphenated

variable {u : Uuid} {cs : List Char}

theorem length (h : u.Hyphenated cs) : cs.length = 36 := by
  obtain ⟨digits, ⟨ha, hb, hc, hd, he⟩, -⟩ := h
  simp [ha, hb, hc, hd, he]

theorem head (h : u.Hyphenated cs) : ∃ c rest digit, cs = c :: rest ∧ Hexadecimal.value? c = some digit := by
  obtain ⟨digits, hgroups, hdigits⟩ := h
  cases hgroups with
  | @intro a _ _ _ _ ha =>
    cases a with
    | nil => cases ha
    | cons c a =>
      obtain ⟨digit, _, hdigit, -, -⟩ := List.forall₂_cons_left_iff.mp hdigits
      exact ⟨c, _, digit, rfl, hdigit⟩

end Hyphenated

/-! ## Spellings -/

/-- What may stand before the hyphenated form, in letters of either case. -/
def IsScheme (scheme : List Char) : Prop :=
  scheme.map Char.toLower = ['u', 'r', 'n', ':', 'u', 'u', 'i', 'd', ':']

/-- The characters spell a UUID. -/
inductive Spelled (u : Uuid) : List Char → Prop where
  | simple {cs : List Char} (h : u.Digits cs) : Spelled u cs
  | hyphenated {cs : List Char} (h : u.Hyphenated cs) : Spelled u cs
  | braced {cs : List Char} (h : u.Hyphenated cs) : Spelled u ('\x7b' :: cs ++ ['\x7d'])
  | urn {scheme cs : List Char} (hscheme : IsScheme scheme) (h : u.Hyphenated cs) : Spelled u (scheme ++ cs)

theorem IsScheme.length {scheme : List Char} (h : IsScheme scheme) : scheme.length = 9 := by
  rw [← List.length_map (f := Char.toLower), h]
  rfl

/-- The letter that begins the scheme is no digit. -/
theorem value?_of_toLower {c : Char} (h : c.toLower = 'u') : Hexadecimal.value? c = none := by
  unfold Char.toLower at h
  split at h
  · have hval : c.val + ('a'.val - 'A'.val) = 'U'.val + ('a'.val - 'A'.val) := congrArg Char.val h
    rw [Char.ext ((UInt32.add_left_inj _).mp hval)]
    rfl
  · rw [h]
    rfl

theorem hyphenatedPart_of_hyphenated {u : Uuid} {cs : List Char} (h : u.Hyphenated cs) : hyphenatedPart cs = cs := by
  obtain ⟨c, rest, digit, rfl, hdigit⟩ := h.head
  rw [hyphenatedPart, if_neg, if_neg]
  · rintro ⟨hbrace, -⟩
    rw [Option.some.inj hbrace] at hdigit
    cases hdigit
  · intro hscheme
    rw [value?_of_toLower (List.cons.inj hscheme).1] at hdigit
    cases hdigit

theorem hyphenatedPart_braced (cs : List Char) : hyphenatedPart ('\x7b' :: cs ++ ['\x7d']) = cs := by
  rw [hyphenatedPart, if_neg, if_pos]
  · exact List.dropLast_concat
  · exact ⟨rfl, List.getLast?_concat⟩
  · intro hscheme
    exact absurd (List.cons.inj hscheme).1 (by decide)

theorem hyphenatedPart_urn {scheme : List Char} (h : IsScheme scheme) (cs : List Char) :
    hyphenatedPart (scheme ++ cs) = cs := by
  rw [hyphenatedPart, if_pos]
  · rw [← h.length, List.drop_left]
  · rw [← h.length, List.take_left]
    exact h

/-- A text whose hyphenated part is the hyphenated form is a spelling. -/
theorem spelled_of_hyphenatedPart {u : Uuid} {cs : List Char} (h : u.Hyphenated (hyphenatedPart cs)) :
    u.Spelled cs := by
  rw [hyphenatedPart] at h
  split at h
  · next hscheme =>
    rw [← List.take_append_drop 9 cs]
    exact .urn hscheme h
  · split at h
    · next hbraces =>
      have htail : cs.tail ≠ [] := by
        intro hnil
        rw [hnil] at h
        cases h.length
      rw [eq_between hbraces.1 hbraces.2 htail]
      exact .braced h
    · exact .hyphenated h

/-! ## Result -/

/-- **Reading accepts the spellings** of a UUID and no other text. The length of a text tells whether its digits stand
    alone; every other spelling is what is left when the scheme or the braces are taken off. -/
theorem ofText?_eq_some_iff {s : String} {u : Uuid} : ofText? s = some u ↔ u.Spelled s.toList := by
  rw [ofText?]
  generalize s.toList = cs
  by_cases hlen : cs.length = 32
  · rw [if_pos hlen, ofDigits?_eq_some_iff]
    -- all other spellings are longer than their digits
    refine ⟨.simple, fun h => ?_⟩
    cases h with
    | simple h => exact h
    | hyphenated h => exact absurd (h.length.symm.trans hlen) (by decide)
    | @braced cs h =>
      rw [List.length_append, List.length_cons, h.length] at hlen
      cases hlen
    | urn hscheme h =>
      rw [List.length_append, hscheme.length, h.length] at hlen
      cases hlen
  · rw [if_neg hlen, readHyphenated_eq_some_iff]
    refine ⟨spelled_of_hyphenatedPart, fun h => ?_⟩
    cases h with
    | simple h => exact absurd h.length hlen
    | hyphenated h => rwa [hyphenatedPart_of_hyphenated h]
    | braced h => rwa [hyphenatedPart_braced]
    | urn hscheme h => rwa [hyphenatedPart_urn hscheme]

/-- The written form is a spelling. -/
theorem spelled_text (u : Uuid) : u.Spelled u.text.toList := by
  refine .hyphenated ⟨u.digits.toList.map Hexadecimal.digit, ?grouped, ?digits⟩
  case grouped =>
    rw [text, String.toList_ofList]
    generalize hcs : u.digits.toList.map Hexadecimal.digit = cs
    have hlen : cs.length = 32 := by rw [← hcs, List.length_map, Vector.length_toList]
    have hgrouped := Grouped.intro (a := cs.take 8) (b := (cs.drop 8).take 4) (c := (cs.drop 12).take 4)
      (d := (cs.drop 16).take 4) (e := cs.drop 20) (by simp [hlen]) (by simp [hlen]) (by simp [hlen])
      (by simp [hlen]) (by simp [hlen])
    have hback : ∀ n, cs.take n ++ (cs.drop n).take 4 = cs.take (n + 4) := fun n => List.take_add.symm
    rw [hback, hback, hback, List.take_append_drop] at hgrouped
    simpa only [List.append_assoc, List.cons_append] using hgrouped
  case digits =>
    rw [Digits, List.forall₂_map_left_iff]
    exact List.forall₂_same.mpr fun digit _ => Hexadecimal.value?_digit digit

theorem ofText?_text (u : Uuid) : ofText? u.text = some u := ofText?_eq_some_iff.mpr u.spelled_text

end Criteria.Uuid
