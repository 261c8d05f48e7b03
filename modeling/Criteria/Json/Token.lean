import Criteria.Json
import Criteria.Decimal
import Criteria.Character

/-!
# `Criteria.Json.Token` — the lexical elements of JSON text

A text is cut into tokens by one pass over its characters. The pass keeps the token that is being
read as its state, so it needs neither look-ahead nor a bound on its steps.

## Contents
- **Numbers.** `number?` reads the number grammar. Integers within 64 bits stay exact; every other
  number is rounded to the nearest binary64 value, and one beyond the greatest is no number.
- **Strings.** `unescaped` resolves escapes; surrogates must come in pairs.
- **Scanning.** `Scan.step` consumes one character, `tokens?` a whole text.
-/

namespace Criteria.Json

/-- A lexical element. -/
inductive Token where
  | openArray
  | closeArray
  | openObject
  | closeObject
  | comma
  | colon
  | scalar (value : Json)
  deriving DecidableEq, Repr

/-! ## Numbers -/

/-- The value of a list of decimal digits. -/
def digitsValue (digits : List Char) : Nat :=
  digits.foldl (fun n c => 10 * n + (c.toNat - 48)) 0

/-- Reads `e`, an optional sign and at least one digit; the empty text is the exponent zero. -/
def exponent? : List Char → Option Int
  | [] => some 0
  | mark :: rest =>
    let (negative, digits) := match rest with
      | '-' :: r => (true, r)
      | '+' :: r => (false, r)
      | r => (false, r)
    if (mark = 'e' ∨ mark = 'E') ∧ digits ≠ [] ∧ digits.all Char.isDigit then
      some (if negative then -(digitsValue digits : Int) else digitsValue digits)
    else none

/-- Reads an optional fraction, which has at least one digit, and gives what follows it. -/
def fraction? : List Char → Option (List Char × List Char)
  | '.' :: rest =>
    let digits := rest.takeWhile Char.isDigit
    if digits = [] then none else some (digits, rest.dropWhile Char.isDigit)
  | rest => some ([], rest)

/-- The number written by a sign, integer digits, fraction digits and an exponent. Zero with a sign
    and numbers with a fraction or an exponent are binary64 values. -/
def numberOf (negative : Bool) (whole fraction tail : List Char) (exponent : Int) :
    Option Number :=
  let value : Int := if negative then -(digitsValue whole : Int) else digitsValue whole
  if tail = [] ∧ fraction = [] ∧ ¬(negative ∧ value = 0) ∧
      (fitsSigned value ∨ fitsUnsigned value) then
    some (.integer value)
  else
    (Decimal.nearestBits? negative
      ⟨digitsValue (whole ++ fraction), exponent - fraction.length⟩).map .float

/-- Reads a whole text as a number. A leading zero stands alone. -/
def number? (text : List Char) : Option Number :=
  let (negative, rest) := match text with
    | '-' :: r => (true, r)
    | r => (false, r)
  let whole := rest.takeWhile Char.isDigit
  if whole = [] ∨ (whole.length ≠ 1 ∧ whole.head? = some '0') then none
  else do
    let (fraction, tail) ← fraction? (rest.dropWhile Char.isDigit)
    let exponent ← exponent? tail
    numberOf negative whole fraction tail exponent

/-! ## Strings -/

/-- The value of a list of hexadecimal digits. -/
def hexNumber? (digits : List Char) : Option Nat :=
  digits.foldlM (fun n c => (Hexadecimal.value? c).map (16 * n + ·.val)) 0

/-- The character that a one-letter escape stands for. -/
def unescapedLetter? : Char → Option Char
  | '"' => some '"'
  | '\\' => some '\\'
  | '/' => some '/'
  | 'b' => some '\x08'
  | 'f' => some '\x0c'
  | 'n' => some '\n'
  | 'r' => some '\r'
  | 't' => some '\t'
  | _ => none

/-- What has been read of the contents of a string. -/
structure Contents where
  /-- The characters so far, last first. -/
  reversed : List Char
  /-- A leading surrogate that waits for its partner. -/
  leading : Option Nat

/-- Appends a character that stands for itself or came from a one-letter escape. -/
def Contents.push (s : Contents) (c : Char) : Option Contents :=
  if s.leading.isSome then none else some ⟨c :: s.reversed, none⟩

/-- Appends the code unit of a four-digit escape; a leading surrogate waits for a trailing one. -/
def Contents.pushUnit (s : Contents) (unit : Nat) : Option Contents :=
  match s.leading with
  | some high =>
    if 0xDC00 ≤ unit ∧ unit < 0xE000 then
      some ⟨Char.ofNat (0x10000 + (high - 0xD800) * 0x400 + (unit - 0xDC00)) :: s.reversed, none⟩
    else none
  | none =>
    if 0xD800 ≤ unit ∧ unit < 0xDC00 then some ⟨s.reversed, some unit⟩
    else if 0xDC00 ≤ unit ∧ unit < 0xE000 then none
    else some ⟨Char.ofNat unit :: s.reversed, none⟩

/-! ## Scanning -/

/-- The token that is being read. -/
inductive Mode where
  | between
  | bare (reversed : List Char)
  | quoted (contents : Contents)
  | escape (contents : Contents)
  | unit (contents : Contents) (digits : List Char)

/-- The state of the scan: what is being read, and the finished tokens, last first. -/
structure Scan where
  mode : Mode
  reversed : List Token

/-- Blank characters between tokens. -/
def isBlank (c : Char) : Bool := c = ' ' || c = '\n' || c = '\t' || c = '\r'

/-- Characters of numbers and of the words `true`, `false` and `null`. -/
def isBare (c : Char) : Bool := c.isAlphanum || c = '-' || c = '+' || c = '.'

/-- The value that a bare run of characters stands for. -/
def bareValue? (run : List Char) : Option Json :=
  if run = ['n', 'u', 'l', 'l'] then some .null
  else if run = ['t', 'r', 'u', 'e'] then some (.bool true)
  else if run = ['f', 'a', 'l', 's', 'e'] then some (.bool false)
  else (number? run).map .number

/-- The token of a punctuation mark. -/
def punctuation? : Char → Option Token
  | '[' => some .openArray
  | ']' => some .closeArray
  | '\x7b' => some .openObject
  | '\x7d' => some .closeObject
  | ',' => some .comma
  | ':' => some .colon
  | _ => none

/-- Begins at a character outside any token. -/
def Scan.begin (done : List Token) (c : Char) : Option Scan :=
  if isBlank c then some ⟨.between, done⟩
  else if c = '"' then some ⟨.quoted ⟨[], none⟩, done⟩
  else if isBare c then some ⟨.bare [c], done⟩
  else (punctuation? c).map fun t => ⟨.between, t :: done⟩

/-- Consumes one character. -/
def Scan.step (s : Scan) (c : Char) : Option Scan :=
  match s.mode with
  | .between => Scan.begin s.reversed c
  | .bare run =>
    if isBare c then some ⟨.bare (c :: run), s.reversed⟩
    else (bareValue? run.reverse).bind fun v => Scan.begin (.scalar v :: s.reversed) c
  | .quoted text =>
    if c = '"' then
      if text.leading.isSome then none
      else some ⟨.between, .scalar (.string (String.ofList text.reversed.reverse)) :: s.reversed⟩
    else if c = '\\' then some ⟨.escape text, s.reversed⟩
    else if c.toNat < 32 then none
    else (text.push c).map fun t => ⟨.quoted t, s.reversed⟩
  | .escape text =>
    if c = 'u' then some ⟨.unit text [], s.reversed⟩
    else do
      let plain ← unescapedLetter? c
      let text ← text.push plain
      some ⟨.quoted text, s.reversed⟩
  | .unit text digits =>
    let digits := digits ++ [c]
    if digits.length < 4 then some ⟨.unit text digits, s.reversed⟩
    else do
      let unit ← hexNumber? digits
      let text ← text.pushUnit unit
      some ⟨.quoted text, s.reversed⟩

/-- Ends the scan at the end of the text. -/
def Scan.finish (s : Scan) : Option (List Token) :=
  match s.mode with
  | .between => some s.reversed.reverse
  | .bare run => (bareValue? run.reverse).map fun v => (.scalar v :: s.reversed).reverse
  | _ => none

/-- The tokens of a text. -/
def tokens? (text : String) : Option (List Token) :=
  (text.toList.foldlM Scan.step ⟨.between, []⟩).bind Scan.finish

end Criteria.Json
