import PulseDaq.Json.Token
import PulseDaq.Text.Utf8

/-!
# Reading JSON

Tokens are put together by a machine with a stack of the arrays and objects that are still open,
so nesting is limited by nothing but the text.

* `Json.Builder.step`: what one token does to the machine.
* `Json.parse?`: the value of a text.
-/

namespace PulseDaq.Json

/-- An array or object that is still open; what it holds so far stands last one first. -/
inductive Frame where
  | array (items : List Value)
  /-- An object and the name of the field being read; a name that is not text is `none`. -/
  | object (fields : List (Option String × Value)) (name : Option String)
  deriving Repr

/-- What may follow. -/
inductive Expectation where
  | value
  /-- The first item of an array, or its end. -/
  | itemOrEnd
  /-- The first name of an object, or its end. -/
  | nameOrEnd
  | name
  | colon
  /-- A comma, or the end of what is open. -/
  | more
  deriving Repr, DecidableEq

/-- A value under construction. -/
structure Builder where
  expects : Expectation := .value
  /-- What is open, innermost first. -/
  stack : List Frame := []
  /-- The value once it is complete. -/
  result : Option Value := none

namespace Builder

/-- The object of some fields, which can be read only if all of its names are text. -/
def ofFields (fields : List (Option String × Value)) : Value :=
  match fields.mapM fun (name, v) => name.map fun name => (name, v) with
  | some fields => .object fields
  | none => .unreadable

/-- A value is complete: it goes to what is open around it. -/
def deliver (v : Value) : List Frame → Builder
  | [] => { expects := .more, result := some v }
  | .array items :: rest => { expects := .more, stack := .array (v :: items) :: rest }
  | .object fields name :: rest =>
    { expects := .more, stack := .object ((name, v) :: fields) none :: rest }

/-- What one token does. -/
def step (b : Builder) (t : Token) : Option Builder :=
  match t, b.expects, b.stack with
  | .literal v, .value, stack | .literal v, .itemOrEnd, stack => some (deliver v stack)
  | .string s, .value, stack | .string s, .itemOrEnd, stack =>
    some (deliver (s.elim .unreadable .string) stack)
  | .string s, .name, .object fields _ :: rest | .string s, .nameOrEnd, .object fields _ :: rest =>
    some { expects := .colon, stack := .object fields s :: rest }
  | .openArray, .value, stack | .openArray, .itemOrEnd, stack =>
    some { expects := .itemOrEnd, stack := .array [] :: stack }
  | .openObject, .value, stack | .openObject, .itemOrEnd, stack =>
    some { expects := .nameOrEnd, stack := .object [] none :: stack }
  | .closeArray, .itemOrEnd, .array items :: rest | .closeArray, .more, .array items :: rest =>
    some (deliver (.array items.reverse) rest)
  | .closeObject, .nameOrEnd, .object fields _ :: rest
  | .closeObject, .more, .object fields _ :: rest => some (deliver (ofFields fields.reverse) rest)
  | .colon, .colon, stack => some { expects := .value, stack := stack }
  | .comma, .more, .array items :: rest => some { expects := .value, stack := .array items :: rest }
  | .comma, .more, .object fields name :: rest =>
    some { expects := .name, stack := .object fields name :: rest }
  | _, _, _ => none

end Builder

/-- The value of a text in which malformed places are `none`. -/
def parse? (text : List (Option Char)) : Option Value := do
  let tokens ← tokens? text
  let b ← tokens.foldlM Builder.step {}
  b.result

/-- The value of a text. -/
def parseText? (text : String) : Option Value :=
  parse? (text.toList.map some)

/-- The value of a text in UTF-8. -/
def parseBytes? (bytes : Bytes) : Option Value :=
  parse? (Utf8.decode bytes)

end PulseDaq.Json
