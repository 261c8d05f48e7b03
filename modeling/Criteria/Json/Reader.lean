import Criteria.Json.Token

/-!
# `Criteria.Json.Reader` — values from JSON text

Reading folds over the tokens with a stack of unfinished arrays and objects. A repeated key keeps
its first position with the last value. At most 127 composite values may be open at once.

## Contents
- **Stack.** `Frame` is an unfinished composite value; `Expect` says what may come next.
- **Steps.** `Reading.step` consumes one token; `Reading.put` places a finished value.
- **Whole texts.** `Json.parse?`.
-/

namespace Criteria.Json

/-- A composite value that is not closed yet. -/
inductive Frame where
  /-- An array with its items so far, last first. -/
  | array (reversed : List Json)
  /-- An object with its entries so far and the key whose value is being read. -/
  | object (entries : List (String × Json)) (key : String)

/-- What may come next. -/
inductive Expect where
  | value
  | itemOrClose
  | keyOrClose
  | key
  | colon
  | commaOrClose
  | nothing

/-- The state of reading: open composite values, innermost first, what may come next, and the
    value once it is complete. -/
structure Reading where
  stack : List Frame
  expect : Expect
  result : Json

/-- The most composite values that may be open at once. -/
def maxOpen : Nat := 127

/-- Places a finished value into the innermost open composite, or makes it the result. -/
def Reading.put (stack : List Frame) (v : Json) : Reading :=
  match stack with
  | [] => ⟨[], .nothing, v⟩
  | .array items :: rest => ⟨.array (v :: items) :: rest, .commaOrClose, .null⟩
  | .object entries key :: rest =>
    ⟨.object (putEntry key v entries) key :: rest, .commaOrClose, .null⟩

/-- Opens a composite value. -/
def Reading.enter (stack : List Frame) (frame : Frame) (expect : Expect) : Option Reading :=
  if stack.length < maxOpen then some ⟨frame :: stack, expect, .null⟩ else none

/-- Consumes the first token of a value. -/
def Reading.beginValue (stack : List Frame) : Token → Option Reading
  | .scalar v => some (Reading.put stack v)
  | .openArray => Reading.enter stack (.array []) .itemOrClose
  | .openObject => Reading.enter stack (.object [] "") .keyOrClose
  | _ => none

/-- Consumes a key of the innermost open object. -/
def Reading.beginEntry : List Frame → Token → Option Reading
  | .object entries _ :: rest, .scalar (.string key) =>
    some ⟨.object entries key :: rest, .colon, .null⟩
  | _, _ => none

/-- Consumes a closing token. -/
def Reading.close : List Frame → Token → Option Reading
  | .array items :: rest, .closeArray => some (Reading.put rest (.array items.reverse))
  | .object entries _ :: rest, .closeObject => some (Reading.put rest (.object entries))
  | _, _ => none

/-- Consumes one token. -/
def Reading.step (s : Reading) (t : Token) : Option Reading :=
  match s.expect with
  | .value => Reading.beginValue s.stack t
  | .itemOrClose =>
    if t = .closeArray then Reading.close s.stack t else Reading.beginValue s.stack t
  | .keyOrClose =>
    if t = .closeObject then Reading.close s.stack t else Reading.beginEntry s.stack t
  | .key => Reading.beginEntry s.stack t
  | .colon => if t = .colon then some ⟨s.stack, .value, .null⟩ else none
  | .commaOrClose =>
    match t, s.stack with
    | .comma, .array _ :: _ => some ⟨s.stack, .value, .null⟩
    | .comma, .object _ _ :: _ => some ⟨s.stack, .key, .null⟩
    | t, stack => Reading.close stack t
  | .nothing => none

/-- Reads a whole text as one value. -/
def parse? (text : String) : Option Json := do
  let tokens ← tokens? text
  let final ← tokens.foldlM Reading.step ⟨[], .value, .null⟩
  match final.expect with
  | .nothing => some final.result
  | _ => none

end Criteria.Json
