import Criteria.Formula
import Criteria.Json.Printer

/-!
# `Criteria.Formula.Text` — formulas as query text

## Contents
- **Literals.** `Literal.text`: null, booleans and numbers are written bare. A string, and the compact text of a
  composite value, stands between single quotes with every single quote inside it doubled.
- **Operands.** `Operand.scalarText` and `Operand.listText`.
- **Predicates.** `Predicate.text`.
- **Formulas.** `Formula.text` puts parentheses around every group of several members, so that no
  precedence between connectives is needed; `Formula.clauseText` leaves out the outermost pair. A
  group without members is `1=1`.
-/

namespace Criteria

/-! ## Literals -/

namespace Literal

/-- The characters of a text with every single quote doubled. -/
def doubled (cs : List Char) : List Char := cs.flatMap fun c => if c = '\'' then [c, c] else [c]

theorem doubled_quote (cs : List Char) : doubled ('\'' :: cs) = '\'' :: '\'' :: doubled cs := rfl

theorem doubled_cons {c : Char} (h : c ≠ '\'') (cs : List Char) : doubled (c :: cs) = c :: doubled cs := by
  simp [doubled, h]

/-- A text between single quotes. -/
def quoted (s : String) : String := String.ofList ('\'' :: doubled s.toList ++ ['\''])

/-- The literal of a value. -/
def text : Json → String
  | .null => "NULL"
  | .bool true => "true"
  | .bool false => "false"
  | .number n => n.text
  | .string s => quoted s
  | v => quoted v.text

/-- The literals of a list of values, with commas between them. -/
def listText (values : List Json) : String := String.intercalate ", " (values.map text)

end Literal

/-! ## Predicates -/

/-- The text of an operand that stands for one value. -/
def Operand.scalarText : Operand → String
  | .parameter name => ":" ++ name
  | .literals [] => ""
  | .literals (value :: _) => Literal.text value
  | .absent => "NULL"

/-- The text of an operand that stands for a list of values. -/
def Operand.listText : Operand → String
  | .parameter name => ":" ++ name
  | .literals values => Literal.listText values
  | .absent => ""

/-- The text of a predicate. -/
def Predicate.text (p : Predicate) : String :=
  match p.test with
  | .isNull => p.property.text ++ " IS NULL"
  | .isNotNull => p.property.text ++ " IS NOT NULL"
  | .inList => p.property.text ++ " IN (" ++ p.operand.listText ++ ")"
  | .notInList => p.property.text ++ " NOT IN (" ++ p.operand.listText ++ ")"
  | .like => p.property.text ++ " LIKE " ++ p.operand.scalarText
  | .compare comparison =>
    p.property.text ++ " " ++ comparison.symbol ++ " " ++ p.operand.scalarText

/-! ## Formulas -/

namespace Formula

mutual

/-- The text of a formula as a part of another. -/
def text : Formula → String
  | .leaf p => p.text
  | .group _ [] => "1=1"
  | .group _ [f] => text f
  | .group connective (f :: g :: fs) => "(" ++ text f ++ restText connective (g :: fs) ++ ")"

/-- The text of the members after the first, each behind its connective. -/
def restText (connective : Connective) : List Formula → String
  | [] => ""
  | f :: fs => " " ++ connective.text ++ " " ++ text f ++ restText connective fs

end

/-- The text of a formula as the whole body of a clause. -/
def clauseText : Formula → String
  | .group connective (f :: g :: fs) => text f ++ restText connective (g :: fs)
  | f => text f

end Formula

end Criteria
