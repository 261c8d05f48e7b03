/-!
# `Criteria.Character` — classes of characters

## Contents
- **Classes.** `CodeRanges` gives a class by closed ranges of code points.
- **White space.** `isBlank` are the 25 characters with the Unicode property White_Space; `stripped` and `trimmed`
  take a class off the two ends of a text.
- **Hexadecimal digits.** They are written in lower case and read in either case; `Hexadecimal.value?_digit` says
  that reading undoes writing.
-/

namespace Criteria

/-! ## Classes -/

/-- Closed ranges of code points, ascending and apart from each other. -/
abbrev CodeRanges := List (Nat × Nat)

/-- Whether the code point of a character lies in one of the ranges. -/
def CodeRanges.covers (ranges : CodeRanges) (c : Char) : Bool :=
  ranges.any fun r => r.1 ≤ c.toNat && c.toNat ≤ r.2

/-! ## White space -/

/-- Closed ranges of the code points of blank characters, ascending. -/
def blankRanges : CodeRanges :=
  [(0x9, 0xD), (0x20, 0x20), (0x85, 0x85), (0xA0, 0xA0), (0x1680, 0x1680), (0x2000, 0x200A),
   (0x2028, 0x2029), (0x202F, 0x202F), (0x205F, 0x205F), (0x3000, 0x3000)]

/-- Whether a character is blank. -/
def isBlank (c : Char) : Bool := blankRanges.covers c

/-- A text without the characters of a class at its two ends. -/
def stripped (inClass : Char → Bool) (cs : List Char) : List Char :=
  (((cs.dropWhile inClass).reverse).dropWhile inClass).reverse

/-- A text without the blank characters at its two ends. -/
def trimmed (cs : List Char) : List Char := stripped isBlank cs

/-! ## Hexadecimal digits -/

namespace Hexadecimal

/-- The last hexadecimal digit of a number. -/
def lastDigit (n : Nat) : Fin 16 := Fin.ofNat 16 n

/-- The lower-case digit of a number below sixteen. -/
def digit (n : Fin 16) : Char := Nat.digitChar n.val

/-- The value of a digit of either case. -/
def value? (c : Char) : Option (Fin 16) :=
  let code := c.toNat
  if c.isDigit then some (lastDigit (code - 48))
  else if 97 ≤ code ∧ code ≤ 102 then some (lastDigit (code - 87))
  else if 65 ≤ code ∧ code ≤ 70 then some (lastDigit (code - 55))
  else none

/-- Reading a written digit gives its value. -/
@[simp] theorem value?_digit : ∀ n : Fin 16, value? (digit n) = some n := by decide

end Hexadecimal

end Criteria
