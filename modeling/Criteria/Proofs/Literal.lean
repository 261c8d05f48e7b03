import Criteria.Proofs.Scanning

/-!
# `Criteria.Proofs.Literal` — literals are not read as anything else

Values are written into a query as numbers, as words, or between quotes. Numbers and words are made of harmless
characters, and quotes keep everything else apart, so a literal contributes no parameter to the text around it.

## Contents
- **Numbers.** `Decimal.IsNumeric`: digits, signs, points and the letter of the exponent are all that the text of a
  number has (`Number.isNumeric_text`), and it has at least one character (`Number.text_ne_nil`).
- **Literals.** `scans_literal` and `scans_listText`.
-/

namespace Criteria

/-! ## Numbers -/

namespace Decimal

/-- A character that numbers are written with. -/
def isNumberChar (c : Char) : Bool := c.isDigit || c = '-' || c = '+' || c = '.' || c = 'e'

/-- A text of such characters. -/
def IsNumeric (cs : List Char) : Prop := ∀ c ∈ cs, isNumberChar c = true

theorem isNumeric_nil : IsNumeric [] := nofun

theorem IsNumeric.cons {c : Char} {cs : List Char} (hc : isNumberChar c = true) (hcs : IsNumeric cs) :
    IsNumeric (c :: cs) := List.forall_mem_cons.mpr ⟨hc, hcs⟩

theorem IsNumeric.append {cs ds : List Char} (hcs : IsNumeric cs) (hds : IsNumeric ds) : IsNumeric (cs ++ ds) :=
  List.forall_mem_append.mpr ⟨hcs, hds⟩

theorem IsNumeric.ite {p : Prop} [Decidable p] {cs ds : List Char} (hcs : IsNumeric cs) (hds : IsNumeric ds) :
    IsNumeric (if p then cs else ds) := by
  split
  · exact hcs
  · exact hds

theorem IsNumeric.take {cs : List Char} (h : IsNumeric cs) (n : Nat) : IsNumeric (cs.take n) :=
  fun c hc => h c (List.mem_of_mem_take hc)

theorem IsNumeric.drop {cs : List Char} (h : IsNumeric cs) (n : Nat) : IsNumeric (cs.drop n) :=
  fun c hc => h c (List.mem_of_mem_drop hc)

theorem isNumeric_zeros (n : Nat) : IsNumeric (List.replicate n '0') := by
  intro c hc
  rw [List.eq_of_mem_replicate hc]
  rfl

theorem isNumeric_digitsOf (n : Nat) : IsNumeric (digitsOf n) := by
  intro c hc
  have hdigit := Nat.isDigit_of_mem_toDigits (by decide) (by decide) hc
  rw [isNumberChar, hdigit]
  rfl

/-- Every layout of a decimal is made of the characters of numbers. -/
theorem isNumeric_text (l : Layout) (d : Numeral) : IsNumeric (l.text d) := by
  have hdigits := isNumeric_digitsOf d.digits
  have hfraction : ∀ n, IsNumeric ('.' :: (digitsOf d.digits).drop n) := fun n => .cons rfl (hdigits.drop n)
  unfold Layout.text
  refine .ite (.ite ?integral (.ite ?mixed ?small)) ?scientific
  case integral =>
    exact (hdigits.append (isNumeric_zeros _)).append (.ite (.cons rfl (.cons rfl isNumeric_nil)) isNumeric_nil)
  case mixed => exact (hdigits.take _).append (hfraction _)
  case small => exact IsNumeric.append (.cons rfl (.cons rfl (isNumeric_zeros _))) hdigits
  case scientific =>
    -- one digit, the others behind a point, and an exponent with its sign
    have hsign : ∀ e : Int, isNumberChar (if e < 0 then '-' else '+') = true := by
      intro e
      split <;> rfl
    refine IsNumeric.append ((hdigits.take 1).append (.ite isNumeric_nil (hfraction 1))) ?_
    exact .cons rfl (.cons (hsign _) (isNumeric_digitsOf _))

theorem isNumeric_floatText (l : Layout) (bits : UInt64) : IsNumeric (l.floatText bits) :=
  IsNumeric.append (.ite (.cons rfl isNumeric_nil) isNumeric_nil) (isNumeric_text l _)

theorem ite_ne_nil {p : Prop} [Decidable p] {cs ds : List Char} (hcs : cs ≠ []) (hds : ds ≠ []) :
    (if p then cs else ds) ≠ [] := by
  split
  · exact hcs
  · exact hds

/-- No layout leaves a decimal without any character. -/
theorem text_ne_nil (l : Layout) (d : Numeral) : l.text d ≠ [] := by
  have hdigits : digitsOf d.digits ≠ [] := Nat.toDigits_ne_nil
  have hcons : ∀ (cs ds : List Char) (c : Char), cs ++ c :: ds ≠ [] :=
    fun cs _ _ => List.append_ne_nil_of_right_ne_nil cs (List.cons_ne_nil _ _)
  unfold Layout.text
  refine ite_ne_nil (ite_ne_nil ?integral (ite_ne_nil ?mixed ?small)) ?scientific
  case integral => exact List.append_ne_nil_of_left_ne_nil (List.append_ne_nil_of_left_ne_nil hdigits _) _
  case mixed => exact hcons _ _ _
  case small => exact List.cons_ne_nil _ _
  case scientific => exact hcons _ _ _

theorem floatText_ne_nil (l : Layout) (bits : UInt64) : l.floatText bits ≠ [] :=
  List.append_ne_nil_of_right_ne_nil _ (text_ne_nil l _)

end Decimal

namespace Number

theorem toList_integer_ofNat (n : Nat) : (integer (.ofNat n)).text.toList = Decimal.digitsOf n := Nat.toList_repr

theorem toList_integer_negSucc (n : Nat) : (integer (.negSucc n)).text.toList = '-' :: Decimal.digitsOf (n + 1) := by
  have htext : (integer (.negSucc n)).text = "-" ++ toString (n + 1) := rfl
  have hdigits : (toString (n + 1)).toList = Decimal.digitsOf (n + 1) := Nat.toList_repr
  rw [htext, String.toList_append, hdigits]
  rfl

theorem toList_float (bits : UInt64) : (float bits).text.toList = Decimal.compactLayout.floatText bits :=
  String.toList_ofList

theorem isNumeric_text (n : Number) : Decimal.IsNumeric n.text.toList := by
  rcases n with (n | n) | bits
  · rw [toList_integer_ofNat]
    exact Decimal.isNumeric_digitsOf n
  · rw [toList_integer_negSucc]
    exact .cons rfl (Decimal.isNumeric_digitsOf (n + 1))
  · rw [toList_float]
    exact Decimal.isNumeric_floatText _ bits

theorem text_ne_nil (n : Number) : n.text.toList ≠ [] := by
  rcases n with (n | n) | bits
  · rw [toList_integer_ofNat]
    exact Nat.toDigits_ne_nil
  · rw [toList_integer_negSucc]
    exact List.cons_ne_nil _ _
  · rw [toList_float]
    exact Decimal.floatText_ne_nil _ bits

end Number

/-! ## Literals -/

open Scanning

theorem plain_of_isNumeric {t : String} (h : Decimal.IsNumeric t.toList) : Plain t := by
  intro c hc
  have hnumber := h c hc
  constructor
  all_goals
    rintro rfl
    exact absurd hnumber (by decide)

theorem plain_number (n : Number) : Plain n.text := plain_of_isNumeric n.isNumeric_text

/-- **A literal contributes no name**, whatever its value contains. -/
theorem scans_literal (v : Json) : Scans (Literal.text v) [] := by
  cases v with
  | null => exact Plain.scans (by decide)
  | bool b => cases b <;> exact Plain.scans (by decide)
  | number n => exact (plain_number n).scans
  | string s => exact scans_quoted s
  | array items => exact scans_quoted _
  | object entries => exact scans_quoted _

theorem scans_listText (vs : List Json) : Scans (Literal.listText vs) [] := by
  apply scans_intercalate
  intro t ht
  obtain ⟨v, -, rfl⟩ := List.mem_map.mp ht
  exact scans_literal v

end Criteria
