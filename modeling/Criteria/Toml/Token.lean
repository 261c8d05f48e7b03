import Criteria.Json.Token

/-!
# `Criteria.Toml.Token` — the lexical elements of configuration text

Values are strings on one line, integers, floats, booleans and dates, which are kept as their text.
Strings over several lines are not read.

## Contents
- **Scanning.** `Toml.tokens?`, one pass over the characters.
- **Scalars.** `Toml.bareValue?` for values, `Toml.key?` for keys, which may be dotted.
-/

namespace Criteria.Toml

/-- A lexical element. -/
inductive Token where
  | bare (run : List Char)
  | text (value : String)
  | equals
  | comma
  | openBracket
  | closeBracket
  | openBrace
  | closeBrace
  | newline
  deriving DecidableEq, Repr

/-! ## Scanning -/

/-- The token that is being read. -/
inductive Mode where
  | between
  | comment
  | carriage
  | bare (reversed : List Char)
  | literal (reversed : List Char)
  | basic (reversed : List Char)
  | escape (reversed : List Char)
  | unit (reversed : List Char) (count : Nat) (digits : List Char)

/-- The state of the scan: what is being read, and the finished tokens, last first. -/
structure Scan where
  mode : Mode
  reversed : List Token

/-- Characters of bare keys, numbers, words and dates. -/
def isBare (c : Char) : Bool :=
  c.isAlphanum || c = '_' || c = '-' || c = '+' || c = '.' || c = ':'

/-- The token of a punctuation mark. -/
def punctuation? : Char → Option Token
  | '=' => some .equals
  | ',' => some .comma
  | '[' => some .openBracket
  | ']' => some .closeBracket
  | '\x7b' => some .openBrace
  | '\x7d' => some .closeBrace
  | '\n' => some .newline
  | _ => none

/-- Begins at a character outside any token. -/
def Scan.begin (done : List Token) (c : Char) : Option Scan :=
  if c = ' ' ∨ c = '\t' then some ⟨.between, done⟩
  else if c = '\r' then some ⟨.carriage, done⟩
  else if c = '#' then some ⟨.comment, done⟩
  else if c = '"' then some ⟨.basic [], done⟩
  else if c = '\'' then some ⟨.literal [], done⟩
  else if isBare c then some ⟨.bare [c], done⟩
  else (punctuation? c).map fun t => ⟨.between, t :: done⟩

/-- Whether a character may not stand in a string or comment. -/
def isControl (c : Char) : Bool := (c.toNat < 32 && c ≠ '\t') || c.toNat = 127

/-- The character that a one-letter escape stands for. -/
def unescapedLetter? : Char → Option Char
  | '"' => some '"'
  | '\\' => some '\\'
  | 'b' => some '\x08'
  | 'f' => some '\x0c'
  | 'n' => some '\n'
  | 'r' => some '\r'
  | 't' => some '\t'
  | _ => none

/-- The character with a number; surrogates are no characters. -/
def character? (n : Nat) : Option Char :=
  if n < 0xD800 ∨ (0xDFFF < n ∧ n < 0x110000) then some (Char.ofNat n) else none

/-- Consumes one character. -/
def Scan.step (s : Scan) (c : Char) : Option Scan :=
  match s.mode with
  | .between => Scan.begin s.reversed c
  | .comment =>
    if c = '\n' ∨ c = '\r' then Scan.begin s.reversed c
    else if isControl c then none
    else some s
  | .carriage => if c = '\n' then some ⟨.between, .newline :: s.reversed⟩ else none
  | .bare run =>
    if isBare c then some ⟨.bare (c :: run), s.reversed⟩
    else Scan.begin (.bare run.reverse :: s.reversed) c
  | .literal text =>
    if c = '\'' then some ⟨.between, .text (String.ofList text.reverse) :: s.reversed⟩
    else if isControl c then none
    else some ⟨.literal (c :: text), s.reversed⟩
  | .basic text =>
    if c = '"' then some ⟨.between, .text (String.ofList text.reverse) :: s.reversed⟩
    else if c = '\\' then some ⟨.escape text, s.reversed⟩
    else if isControl c then none
    else some ⟨.basic (c :: text), s.reversed⟩
  | .escape text =>
    if c = 'u' then some ⟨.unit text 4 [], s.reversed⟩
    else if c = 'U' then some ⟨.unit text 8 [], s.reversed⟩
    else (unescapedLetter? c).map fun plain => ⟨.basic (plain :: text), s.reversed⟩
  | .unit text count digits =>
    let digits := digits ++ [c]
    if digits.length < count then some ⟨.unit text count digits, s.reversed⟩
    else do
      let number ← Json.hexNumber? digits
      let c ← character? number
      some ⟨.basic (c :: text), s.reversed⟩

/-- Ends the scan at the end of the text. -/
def Scan.finish (s : Scan) : Option (List Token) :=
  match s.mode with
  | .between => some s.reversed.reverse
  | .comment => some s.reversed.reverse
  | .bare run => some (.bare run.reverse :: s.reversed).reverse
  | _ => none

/-- A text without the byte order mark that it may begin with. -/
def withoutMark : List Char → List Char
  | '\ufeff' :: text => text
  | text => text

/-- The tokens of a text. A line ends with a line feed, which a carriage return may precede. -/
def tokens? (text : List Char) : Option (List Token) :=
  (text.foldlM Scan.step ⟨.between, []⟩).bind Scan.finish

/-! ## Scalars -/

/-- Digits without the single underscores between them. -/
def withoutUnderscores? : List Char → Option (List Char)
  | [] => some []
  | [c] => if c = '_' then none else some [c]
  | c :: '_' :: d :: rest =>
    if c.isDigit ∧ d.isDigit then (withoutUnderscores? (d :: rest)).map (c :: ·) else none
  | c :: rest => if c = '_' then none else (withoutUnderscores? rest).map (c :: ·)

/-- Reads a number. Integers have 64 signed bits. -/
def number? (run : List Char) : Option Number := do
  let run ← withoutUnderscores? run
  let number ← match run with
    | '+' :: rest => if rest.head? = some '-' then none else Json.number? rest
    | ['-', '0'] => some (.integer 0)
    | rest => Json.number? rest
  match number with
  | .integer n => if Json.fitsSigned n then some (.integer n) else none
  | .float bits =>
    if run.all fun c => c.isDigit || c = '-' || c = '+' then none else some (.float bits)

/-- Whether a run begins as a date or a time of day. -/
def isDate (run : List Char) : Bool :=
  (4 < run.length && (run.take 4).all Char.isDigit && run[4]? = some '-') ||
    (2 < run.length && (run.take 2).all Char.isDigit && run[2]? = some ':')

/-- The value that a bare run of characters stands for. -/
def bareValue? (run : List Char) : Option Json :=
  if run = ['t', 'r', 'u', 'e'] then some (.bool true)
  else if run = ['f', 'a', 'l', 's', 'e'] then some (.bool false)
  else if isDate run then some (.string (String.ofList run))
  else (number? run).map .number

/-! ## Keys -/

/-- The names of a dotted path. -/
abbrev Path := List String

/-- The parts of a bare key between its dots. -/
def splitDots (run : List Char) : List (List Char) :=
  run.foldr (fun c parts =>
    match parts with
    | [] => if c = '.' then [[], []] else [[c]]
    | part :: rest => if c = '.' then [] :: part :: rest else (c :: part) :: rest) [[]]

/-- The path of a bare key. -/
def bareKey? (run : List Char) : Option Path :=
  let parts := splitDots run
  if parts.all fun part => !part.isEmpty && part.all fun c => c.isAlphanum || c = '_' || c = '-' then
    some (parts.map String.ofList)
  else none

/-- The path of a key. -/
def key? : Token → Option Path
  | .bare run => bareKey? run
  | .text name => some [name]
  | _ => none

end Criteria.Toml
