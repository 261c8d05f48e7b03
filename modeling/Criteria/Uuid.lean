import Criteria.Character

/-!
# `Criteria.Uuid` — universally unique identifiers

A UUID is 32 hexadecimal digits. It is written in lower case with hyphens between groups of 8, 4, 4,
4 and 12 digits. Four forms are read, with digits of either case: the written form, the same in
braces, the same after `urn:uuid:` in letters of either case, and the digits alone.
-/

namespace Criteria

/-- A universally unique identifier, as its 32 hexadecimal digits. -/
structure Uuid where
  digits : Vector (Fin 16) 32
  deriving DecidableEq, Repr

namespace Uuid

/-- The written form. -/
def text (u : Uuid) : String :=
  let cs := u.digits.toList.map Hexadecimal.digit
  String.ofList (cs.take 8 ++ '-' :: (cs.drop 8).take 4 ++ '-' :: (cs.drop 12).take 4 ++
    '-' :: (cs.drop 16).take 4 ++ '-' :: cs.drop 20)

/-- Reads 32 digits. -/
def ofDigits? (cs : List Char) : Option Uuid :=
  match cs.mapM Hexadecimal.value? with
  | some digits => if h : digits.length = 32 then some ⟨⟨digits.toArray, h⟩⟩ else none
  | none => none

/-- Removes the four hyphens, each of which must stand in its place. -/
def withoutHyphens? (cs : List Char) : Option (List Char) :=
  if cs.length = 36 ∧ cs[8]? = some '-' ∧ cs[13]? = some '-' ∧ cs[18]? = some '-' ∧
      cs[23]? = some '-' then
    some (cs.take 8 ++ (cs.drop 9).take 4 ++ (cs.drop 14).take 4 ++ (cs.drop 19).take 4 ++
      cs.drop 24)
  else none

/-- The hyphenated part of a text: after the scheme, inside braces, or all of it. -/
def hyphenatedPart (cs : List Char) : List Char :=
  if (cs.take 9).map Char.toLower = ['u', 'r', 'n', ':', 'u', 'u', 'i', 'd', ':'] then cs.drop 9
  else if cs.head? = some '\x7b' ∧ cs.getLast? = some '\x7d' then cs.tail.dropLast
  else cs

/-- Reads any of the four forms. -/
def ofText? (s : String) : Option Uuid :=
  let cs := s.toList
  if cs.length = 32 then ofDigits? cs
  else (withoutHyphens? (hyphenatedPart cs)).bind ofDigits?

end Uuid

end Criteria
