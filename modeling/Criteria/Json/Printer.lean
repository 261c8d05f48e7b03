import Criteria.Json
import Criteria.Decimal
import Criteria.Character

/-!
# `Criteria.Json.Printer` — the compact text of a value

The text has no spaces and keeps the order of entries. Inside a string only the quote, the
backslash and the characters below the space are escaped; everything else stands for itself.

## Contents
- **Scalars.** `Number.text`, and `quoted` for strings, built from `escaped`.
- **Values.** `Json.text`, with `itemsText` and `entriesText` for the parts of composite values.
-/

namespace Criteria

/-- The text of a number: an integer in decimal, a binary64 value in its shortest decimal form. -/
def Number.text : Number → String
  | .integer n => toString n
  | .float bits => String.ofList (Decimal.compactLayout.floatText bits)

namespace Json

/-- How one character is written inside a string. -/
def escaped (c : Char) : List Char :=
  if c = '"' then ['\\', '"']
  else if c = '\\' then ['\\', '\\']
  else if c = '\n' then ['\\', 'n']
  else if c = '\r' then ['\\', 'r']
  else if c = '\t' then ['\\', 't']
  else if c = '\x08' then ['\\', 'b']
  else if c = '\x0c' then ['\\', 'f']
  else if c.toNat < 32 then
    ['\\', 'u', '0', '0', Hexadecimal.digit (Hexadecimal.lastDigit (c.toNat / 16)),
      Hexadecimal.digit (Hexadecimal.lastDigit c.toNat)]
  else [c]

/-- A string between quotes. -/
def quoted (s : String) : String :=
  String.ofList ('"' :: s.toList.flatMap escaped ++ ['"'])

mutual

/-- The compact text of a value. -/
def text : Json → String
  | .null => "null"
  | .bool true => "true"
  | .bool false => "false"
  | .number n => n.text
  | .string s => quoted s
  | .array items => "[" ++ itemsText items ++ "]"
  | .object entries => "\x7b" ++ entriesText entries ++ "\x7d"

/-- The items of an array, with commas between them. -/
def itemsText : List Json → String
  | [] => ""
  | [v] => text v
  | v :: w :: rest => text v ++ "," ++ itemsText (w :: rest)

/-- The entries of an object, with commas between them. -/
def entriesText : List (String × Json) → String
  | [] => ""
  | [(k, v)] => quoted k ++ ":" ++ text v
  | (k, v) :: e :: rest => quoted k ++ ":" ++ text v ++ "," ++ entriesText (e :: rest)

end

end Json

end Criteria
