import Criteria.OrderedMap

/-!
# `Criteria.Json` — JSON values with ordered objects

Search conditions, orderings and extras arrive as JSON, and parameters and literals are JSON values.
Objects keep the order of their entries, because that order decides the order of predicates,
parameters and select items.

## Contents
- **Values.** `Json`, with numbers split into exact integers and binary64 bit patterns (`Number`).
- **Kinds.** `Json.Kind`, the six kinds of value, and the tests for composite values.
- **Induction.** `Json.induction`, with one case for scalars and one for each kind of composite value.
- **Entries.** `Json.putEntry`, where a repeated key keeps its first position and takes the last
  value; `Json.isPositional` tells numeric keys, which only give a position, from names.
- **Equality.** `Json.same` decides equality of values (`Json.same_iff`).
-/

namespace Criteria

/-- A JSON number: an integer kept exactly, or the bits of a binary64 value. -/
inductive Number where
  | integer (value : Int)
  | float (bits : UInt64)
  deriving DecidableEq, Repr

/-- A JSON value; an object is the list of its entries in order. -/
inductive Json where
  | null
  | bool (value : Bool)
  | number (value : Number)
  | string (value : String)
  | array (items : List Json)
  | object (entries : List (String × Json))
  deriving Repr, Inhabited

namespace Json

/-- The number that is exactly the integer `n`. -/
def int (n : Int) : Json := .number (.integer n)

/-! ## Kinds of value -/

/-- The six kinds of JSON value. -/
inductive Kind where
  | null
  | boolean
  | number
  | string
  | array
  | mapping
  deriving DecidableEq, Repr

/-- The phrase an error message uses for a value of this kind. -/
def Kind.phrase : Kind → String
  | .null => "null"
  | .boolean => "a boolean"
  | .number => "a number"
  | .string => "a string"
  | .array => "an array"
  | .mapping => "a mapping"

/-- The kind of a value. -/
def kind : Json → Kind
  | .null => .null
  | .bool _ => .boolean
  | .number _ => .number
  | .string _ => .string
  | .array _ => .array
  | .object _ => .mapping

/-- Whether the value is an array. -/
def isArray : Json → Bool
  | .array _ => true
  | _ => false

/-- Whether the value is an object. -/
def isObject : Json → Bool
  | .object _ => true
  | _ => false

/-- Whether the value has parts: it is an array or an object. -/
def isComposite (v : Json) : Bool := v.isArray || v.isObject

/-- The text of a string value. -/
def string? : Json → Option String
  | .string s => some s
  | _ => none

/-- Whether an integer fits 64 unsigned bits. -/
def fitsUnsigned (n : Int) : Bool := 0 ≤ n && n < 0x10000000000000000

/-- Whether an integer fits 64 signed bits. -/
def fitsSigned (n : Int) : Bool := -0x8000000000000000 ≤ n && n < 0x8000000000000000

/-- The unsigned 64-bit integer that a number holds. -/
def unsigned? : Json → Option UInt64
  | .number (.integer n) => if fitsUnsigned n then some (UInt64.ofNat n.toNat) else none
  | _ => none

/-- The signed 64-bit integer that a number holds. -/
def signed? : Json → Option Int64
  | .number (.integer n) => if fitsSigned n then some (Int64.ofInt n) else none
  | _ => none

/-! ## Induction -/

section Induction

variable {motive : Json → Prop}

mutual

/-- **Induction over values.** A fact holds of a mapping or an array if it holds of what it contains. -/
theorem induction (scalar : ∀ v, isComposite v = false → motive v)
    (array : ∀ items, (∀ v ∈ items, motive v) → motive (.array items))
    (object : ∀ entries, (∀ e ∈ entries, motive e.2) → motive (.object entries)) : ∀ v, motive v
  | .null => scalar _ rfl
  | .bool _ => scalar _ rfl
  | .number _ => scalar _ rfl
  | .string _ => scalar _ rfl
  | .array items => array items (induction_items scalar array object items)
  | .object entries => object entries (induction_entries scalar array object entries)

theorem induction_items (scalar : ∀ v, isComposite v = false → motive v)
    (array : ∀ items, (∀ v ∈ items, motive v) → motive (.array items))
    (object : ∀ entries, (∀ e ∈ entries, motive e.2) → motive (.object entries)) :
    ∀ items : List Json, ∀ v ∈ items, motive v
  | [] => nofun
  | v :: items =>
    List.forall_mem_cons.mpr ⟨induction scalar array object v, induction_items scalar array object items⟩

theorem induction_entries (scalar : ∀ v, isComposite v = false → motive v)
    (array : ∀ items, (∀ v ∈ items, motive v) → motive (.array items))
    (object : ∀ entries, (∀ e ∈ entries, motive e.2) → motive (.object entries)) :
    ∀ entries : List (String × Json), ∀ e ∈ entries, motive e.2
  | [] => nofun
  | (_, v) :: entries =>
    List.forall_mem_cons.mpr ⟨induction scalar array object v, induction_entries scalar array object entries⟩

end

end Induction

/-! ## Entries of an object -/

/-- Adds an entry. A repeated key keeps its first position and takes the new value. -/
def putEntry (key : String) (value : Json) (entries : List (String × Json)) :
    List (String × Json) :=
  ((OrderedMap.mk entries).set key value).entries

/-- Whether a key only gives a position: it is not empty and all its characters are ASCII digits. -/
def isPositional (key : String) : Bool := key ≠ "" && key.toList.all Char.isDigit

/-- The value under a key of an object. -/
def field? (key : String) : Json → Option Json
  | .object entries => entries.lookup key
  | _ => none

/-! ## Equality -/

mutual

/-- Whether two values are the same, entry order included. -/
def same : Json → Json → Bool
  | .null, .null => true
  | .bool a, .bool b => a == b
  | .number a, .number b => a == b
  | .string a, .string b => a == b
  | .array a, .array b => sameItems a b
  | .object a, .object b => sameEntries a b
  | _, _ => false

/-- Whether two lists of values are the same. -/
def sameItems : List Json → List Json → Bool
  | [], [] => true
  | a :: as, b :: bs => same a b && sameItems as bs
  | _, _ => false

/-- Whether two lists of entries are the same. -/
def sameEntries : List (String × Json) → List (String × Json) → Bool
  | [], [] => true
  | (k, a) :: as, (l, b) :: bs => k == l && same a b && sameEntries as bs
  | _, _ => false

end

mutual

/-- `same` decides equality of values. -/
theorem same_iff : ∀ a b : Json, same a b = true ↔ a = b
  | .null, b => by cases b <;> simp [same]
  | .bool a, b => by cases b <;> simp [same]
  | .number a, b => by cases b <;> simp [same]
  | .string a, b => by cases b <;> simp [same]
  | .array a, b => by cases b <;> simp [same, sameItems_iff]
  | .object a, b => by cases b <;> simp [same, sameEntries_iff]

/-- `sameItems` decides equality of lists of values. -/
theorem sameItems_iff : ∀ as bs : List Json, sameItems as bs = true ↔ as = bs
  | [], bs => by cases bs <;> simp [sameItems]
  | a :: as, bs => by cases bs <;> simp [sameItems, same_iff, sameItems_iff]

/-- `sameEntries` decides equality of lists of entries. -/
theorem sameEntries_iff : ∀ as bs : List (String × Json), sameEntries as bs = true ↔ as = bs
  | [], bs => by cases bs <;> simp [sameEntries]
  | (k, a) :: as, bs => by
    cases bs with
    | nil => simp [sameEntries]
    | cons b bs =>
      obtain ⟨l, b⟩ := b
      simp [sameEntries, same_iff, sameEntries_iff, and_assoc]

end

instance : DecidableEq Json := fun a b => decidable_of_iff _ (same_iff a b)

end Json

end Criteria
