import Criteria.Visible.Extending
import Criteria.Visible.Formless

/-!
# `Criteria.Visible` — texts for the eye of a maintainer

A text is shown between double quotes. Quotes, backslashes and the usual control characters are
escaped by one letter; a character that has no form of its own, or that joins the one before it, is
shown by its code point.

## Contents
- **Characters.** `isInvisible` and `shownChar`.
- **Texts.** `shown`.
-/

namespace Criteria

/-- Whether a character is shown by its code point. -/
def isInvisible (c : Char) : Bool := isFormless c || isExtending c

/-- How one character is shown. -/
def shownChar (c : Char) : List Char :=
  if c = '\x00' then ['\\', '0']
  else if c = '\t' then ['\\', 't']
  else if c = '\r' then ['\\', 'r']
  else if c = '\n' then ['\\', 'n']
  else if c = '\\' then ['\\', '\\']
  else if c = '"' then ['\\', '"']
  else if isInvisible c then
    '\\' :: 'u' :: '\x7b' :: Nat.toDigits 16 c.toNat ++ ['\x7d']
  else [c]

/-- A text between quotes, with nothing invisible left in it. -/
def shown (s : String) : String := String.ofList ('"' :: s.toList.flatMap shownChar ++ ['"'])

end Criteria
