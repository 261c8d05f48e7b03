/-!
# `Criteria.Decimal` — binary64 values and their decimal text

A binary64 value is a sign and an exact quantity `m * 2 ^ q`. Everything here is arithmetic on
naturals and integers; no machine float takes part.

## Contents
- **Binary side.** `Magnitude` is `m * 2 ^ q`; `Magnitude.ofBits` reads it off a bit pattern.
- **Ties.** `Tie` says where a value goes that lies exactly between two neighbours.
- **Writing.** `Magnitude.shortest` selects the fewest digits that read back to the same value, and
  the nearest such digits; `Layout.floatText` lays them out.
- **Reading.** `nearestBits?` rounds `digits * 10 ^ exponent` to the nearest binary64 value, a tie
  going to the even neighbour.
-/

namespace Criteria.Decimal

/-- The power of two with an exponent; one when the exponent is negative. -/
def twoTo (i : Int) : Nat := Nat.pow 2 i.toNat

/-- The power of ten with an exponent; one when the exponent is negative. -/
def tenTo (i : Int) : Nat := Nat.pow 10 i.toNat

/-- The leading bit of the mantissas of full length, which the bit pattern leaves out. -/
def leadingBit : Nat := 0x10000000000000

/-- The bit of the sign. -/
def signBit : Nat := 0x8000000000000000

/-- The pattern of the first value beyond the greatest finite one. -/
def infinityBits : Nat := 0x7FF0000000000000

/-- A finite nonnegative binary64 value, `mantissa * 2 ^ exponent`. -/
structure Magnitude where
  mantissa : Nat
  exponent : Int
  /-- The gap to the value below is half the gap to the value above. -/
  narrowBelow : Bool
  deriving DecidableEq, Repr

/-- The sign of a bit pattern. -/
def isNegative (bits : UInt64) : Bool := bits >>> 63 == 1

/-- The magnitude that a bit pattern stands for. -/
def Magnitude.ofBits (bits : UInt64) : Magnitude :=
  let biased := ((bits >>> 52) &&& 0x7FF).toNat
  let fraction := (bits &&& 0xFFFFFFFFFFFFF).toNat
  if biased = 0 then ⟨fraction, -1074, false⟩
  else ⟨leadingBit + fraction, biased - 1075, fraction == 0 && decide (1 < biased)⟩

/-- The decimal `digits * 10 ^ exponent`. -/
structure Numeral where
  digits : Nat
  exponent : Int
  deriving DecidableEq, Repr

/-- Where a value goes that lies exactly between two neighbours. -/
inductive Tie where
  | toEven
  | away
  deriving DecidableEq, Repr

/-- The one of `n` and `n + 1` that a tie between them goes to. -/
def Tie.choose (t : Tie) (n : Nat) : Nat :=
  match t with
  | .toEven => if n % 2 = 0 then n else n + 1
  | .away => n + 1

/-! ## Selecting digits -/

/-- Compares `a * 10 ^ i` with `n * 2 ^ j`, exactly. -/
def compareScaled (a : Nat) (i : Int) (n : Nat) (j : Int) : Ordering :=
  compare (a * tenTo i * twoTo (-j)) (n * twoTo j * tenTo (-i))

/-- Whether a decimal lies among the reals that round to this value: between the midpoints to its
    two neighbours, which themselves count when the mantissa is even. -/
def Magnitude.readsBack (x : Magnitude) (d : Numeral) : Bool :=
  let low := if x.narrowBelow then 4 * x.mantissa - 1 else 4 * x.mantissa - 2
  let high := 4 * x.mantissa + 2
  let ends := x.mantissa % 2 == 0
  let atLow := compareScaled d.digits d.exponent low (x.exponent - 2)
  let atHigh := compareScaled d.digits d.exponent high (x.exponent - 2)
  (atLow == .gt || (ends && atLow == .eq)) && (atHigh == .lt || (ends && atHigh == .eq))

/-- The number of decimal digits of a natural. -/
def digitCount (n : Nat) : Nat := (Nat.toDigits 10 n).length

/-- The numerator and the denominator of the value as a quotient of naturals. -/
def Magnitude.quotient (x : Magnitude) : Nat × Nat :=
  (x.mantissa * twoTo x.exponent, twoTo (-x.exponent))

/-- The least `k` with the value below `10 ^ k`: the digit counts of numerator and denominator give
    it up to one, and one exact comparison settles which. -/
def Magnitude.scale (x : Magnitude) : Int :=
  let (num, den) := x.quotient
  let estimate : Int := (digitCount num : Int) - digitCount den
  if compareScaled 1 estimate x.mantissa x.exponent == .gt then estimate else estimate + 1

/-- The decimal with `count` digits that reads back, if there is one. Its candidates are the two
    neighbours of the value on the grid of that many digits; of two that read back the nearer is
    taken, and of two equally near the one that the rule for ties chooses. -/
def Magnitude.onGrid? (x : Magnitude) (tie : Tie) (scale : Int) (count : Nat) : Option Numeral :=
  let grid := scale - count
  let (num, den) := x.quotient
  let below := num * tenTo (-grid) / (den * tenTo grid)
  let lower : Numeral := ⟨below, grid⟩
  let upper : Numeral := ⟨below + 1, grid⟩
  match x.readsBack lower, x.readsBack upper with
  | false, false => none
  | true, false => some lower
  | false, true => some upper
  | true, true =>
    match compareScaled (2 * below + 1) grid (2 * x.mantissa) x.exponent with
    | .gt => some lower
    | .lt => some upper
    | .eq => some ⟨tie.choose below, grid⟩

/-- Moves trailing zeros of the digits into the exponent, at most `fuel` of them. -/
def Numeral.strip : Nat → Numeral → Numeral
  | 0, d => d
  | fuel + 1, d =>
    if d.digits ≠ 0 ∧ d.digits % 10 = 0 then Numeral.strip fuel ⟨d.digits / 10, d.exponent + 1⟩
    else d

/-- The fewest digits that read back to a nonzero value, nearest to it among those. Seventeen
    digits suffice; should none read back, the value is written exactly. -/
def Magnitude.shortest (x : Magnitude) (tie : Tie) : Numeral :=
  let scale := x.scale
  match (List.range 17).findSome? (fun n => x.onGrid? tie scale (n + 1)) with
  | some d => Numeral.strip 17 d
  | none =>
    if 0 ≤ x.exponent then ⟨x.mantissa * twoTo x.exponent, 0⟩
    else ⟨x.mantissa * Nat.pow 5 (-x.exponent).toNat, x.exponent⟩

/-! ## Layout -/

/-- The form in which numbers of some output are written. -/
structure Layout where
  /-- The least exponent of the leading digit that is written positionally. -/
  plainFrom : Int
  /-- The first exponent of the leading digit that is no longer written positionally. -/
  plainBelow : Int
  /-- Whether an integral value is written with an empty fraction. -/
  pointZero : Bool
  /-- The choice between two shortest texts that are equally near to the value. -/
  tie : Tie

/-- Numbers in JSON and in queries are positional from `0.00001` up to below `10 ^ 16`, and a tie
    goes to the even digit. -/
def compactLayout : Layout := ⟨-5, 16, true, .toEven⟩

/-- Numbers that are used as names are always positional, and a tie goes away from zero. -/
def plainLayout : Layout := ⟨-400, 400, false, .away⟩

/-- The decimal digits of a natural. -/
def digitsOf (n : Nat) : List Char := Nat.toDigits 10 n

/-- The text of a decimal. Scientific text has one digit before the point, no empty fraction, and a
    signed exponent. -/
def Layout.text (l : Layout) (d : Numeral) : List Char :=
  let digits := digitsOf d.digits
  let leading : Int := d.exponent + digits.length - 1
  if l.plainFrom ≤ leading ∧ leading < l.plainBelow then
    if 0 ≤ d.exponent then
      digits ++ List.replicate d.exponent.toNat '0' ++ (if l.pointZero then ['.', '0'] else [])
    else if 0 ≤ leading then
      digits.take (leading.toNat + 1) ++ '.' :: digits.drop (leading.toNat + 1)
    else '0' :: '.' :: List.replicate (-leading - 1).toNat '0' ++ digits
  else
    let fraction := digits.drop 1
    digits.take 1 ++ (if fraction.isEmpty then [] else '.' :: fraction) ++
      'e' :: (if leading < 0 then '-' else '+') :: digitsOf leading.natAbs

/-- The text of a binary64 value: the sign, then the shortest digits that read back. -/
def Layout.floatText (l : Layout) (bits : UInt64) : List Char :=
  let x := Magnitude.ofBits bits
  (if isNegative bits then ['-'] else []) ++
    l.text (if x.mantissa = 0 then ⟨0, 0⟩ else x.shortest l.tie)

/-! ## Reading -/

/-- The quotient rounded to the nearest integer, a tie going to the even neighbour. -/
def roundQuotient (num den : Nat) : Nat :=
  let q := num / den
  let r := num % den
  match compare (2 * r) den with
  | .lt => q
  | .gt => q + 1
  | .eq => Tie.toEven.choose q

/-- The bits of the binary64 value nearest to the positive quotient `num / den`; none when it lies
    beyond the greatest finite value. -/
def quotientBits? (num den : Nat) : Option Nat :=
  let estimate : Int := (num.log2 : Int) - den.log2
  let floorLog : Int :=
    if num * twoTo (-estimate) < den * twoTo estimate then estimate - 1 else estimate
  let exponent : Int := max (floorLog - 52) (-1074)
  let mantissa := roundQuotient (num * twoTo (-exponent)) (den * twoTo exponent)
  -- A mantissa that rounds up to the next power of two carries into the exponent field by itself.
  let bits := if mantissa < leadingBit then mantissa
    else (exponent + 1075).toNat * leadingBit + (mantissa - leadingBit)
  if bits < infinityBits then some bits else none

/-- The bits of the binary64 value nearest to a decimal; none on overflow. Decimals whose leading
    digit lies far outside the format's range are decided by their size alone. -/
def nearestBits? (negative : Bool) (d : Numeral) : Option UInt64 :=
  let sign : Nat := if negative then signBit else 0
  let size : Int := d.exponent + digitCount d.digits
  if d.digits = 0 ∨ size < -400 then some (UInt64.ofNat sign)
  else if 400 < size then none
  else
    (quotientBits? (d.digits * tenTo d.exponent) (tenTo (-d.exponent))).map
      fun bits => UInt64.ofNat (sign + bits)

end Criteria.Decimal
