import LineTemplate.Json.Token
import Std.Data.TreeMap

/-!
# Reading JSON

A value is put together from its tokens one by one. The containers that are still open are kept
on a stack, so that nesting needs no recursion; more than 127 of them are refused. What may come
next is one of seven expectations. A member of an object takes the place of an earlier one with
its key.
-/
namespace LineTemplate.Json

/-- A container that is still open. -/
inductive Open where
  /-- An array with its items so far, last first. -/
  | array (items : List Json)
  /-- An object with its members so far, and the key whose value is being read. -/
  | object (members : Std.TreeMap Text Json) (key : Text)

/-- What may come next. -/
inductive Expectation where
  | value
  /-- The first item of an array, or its end. -/
  | firstItem
  /-- The first key of an object, or its end. -/
  | firstKey
  | key
  | colon
  /-- A comma, or the end of the innermost container. -/
  | separator
  /-- Nothing: the value is complete. -/
  | finished (value : Json)

/-- The state of a reading between two tokens. -/
structure Reading where
  /-- The open containers, innermost first. -/
  stack : List Open
  expected : Expectation

/-- How many containers may be open at once. -/
def maxDepth : Nat := 127

namespace Reading

def start : Reading := ⟨[], .value⟩

/-- A value has been read, in a container or as a whole. -/
def complete (value : Json) : List Open → Reading
  | [] => ⟨[], .finished value⟩
  | .array items :: rest => ⟨.array (value :: items) :: rest, .separator⟩
  | .object members key :: rest =>
    ⟨.object (members.insert key value) key :: rest, .separator⟩

def push (container : Open) (expected : Expectation) (stack : List Open) : Option Reading :=
  if stack.length < maxDepth then some ⟨container :: stack, expected⟩ else none

/-- A token where a value has to begin. -/
def beginValue (stack : List Open) : Token → Option Reading
  | .openArray => push (.array []) .firstItem stack
  | .openObject => push (.object ∅ []) .firstKey stack
  | .string value => some (complete (.string value) stack)
  | .scalar value => some (complete value stack)
  | _ => none

def step (r : Reading) (token : Token) : Option Reading :=
  match r.expected, token, r.stack with
  | .value, token, stack => beginValue stack token
  | .firstItem, .closeArray, .array _ :: stack => some (complete (.array []) stack)
  | .firstItem, token, stack => beginValue stack token
  | .firstKey, .closeObject, .object _ _ :: stack => some (complete (.object []) stack)
  | .firstKey, .string key, .object members _ :: stack =>
    some ⟨.object members key :: stack, .colon⟩
  | .key, .string key, .object members _ :: stack =>
    some ⟨.object members key :: stack, .colon⟩
  | .colon, .colon, stack => some ⟨stack, .value⟩
  | .separator, .comma, .array items :: stack => some ⟨.array items :: stack, .value⟩
  | .separator, .comma, .object members key :: stack =>
    some ⟨.object members key :: stack, .key⟩
  | .separator, .closeArray, .array items :: stack =>
    some (complete (.array items.reverse) stack)
  | .separator, .closeObject, .object members _ :: stack =>
    some (complete (.object members.toList) stack)
  | _, _, _ => none

def value? (r : Reading) : Option Json :=
  match r.expected with
  | .finished value => some value
  | _ => none

end Reading

/-- The value that a text spells, if it spells one. -/
def read? (text : Text) : Option Json := do
  let reading ← (← tokens? text).foldlM Reading.step .start
  reading.value?

end LineTemplate.Json
