import Criteria.Json
import Criteria.Uuid

/-!
# `Criteria.Identifier` — the values of identifier fields

## Contents
- **Values.** `Identifier`; the integer 1, the text `1` and UUIDs are all different.
- **JSON.** `Identifier.toJson`, and `Identifier.ofJson?`, which takes the first reading that fits:
  null, a signed 64-bit integer, a UUID, any other text.
-/

namespace Criteria

/-- The value of an identifier field. -/
inductive Identifier where
  | null
  | integer (value : Int64)
  | uuid (value : Uuid)
  | text (value : String)
  deriving DecidableEq, Inhabited, Repr

namespace Identifier

/-- Whether there is no value. -/
def isNull (id : Identifier) : Bool := id = .null

/-- The value for display. -/
def display : Identifier → String
  | .null => "NULL"
  | .integer n => toString n.toInt
  | .uuid u => u.text
  | .text s => s

/-- The JSON value that is bound as a parameter. -/
def toJson : Identifier → Json
  | .null => .null
  | .integer n => .int n.toInt
  | .uuid u => .string u.text
  | .text s => .string s

/-- Reads an identifier. -/
def ofJson? : Json → Option Identifier
  | .null => some .null
  | .string s => some ((Uuid.ofText? s).elim (.text s) .uuid)
  | v => v.signed?.map .integer

end Identifier

end Criteria
