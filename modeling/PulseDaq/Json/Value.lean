import PulseDaq.Text.Hex

/-!
# JSON values

Objects keep the order of their fields, and a name that occurs twice stays visible.

* `Json.Value.compact`, `Json.Value.pretty`: a value as text, without blanks or with one line for
  each item, indented by two spaces a level.
* `Json.quote`: a string literal.
-/

namespace PulseDaq.Json

/-- A JSON value. -/
inductive Value where
  | null
  | bool (b : Bool)
  | integer (n : Int)
  | string (s : String)
  | array (items : List Value)
  | object (fields : List (String × Value))
  /-- Well-formed text that stands for none of the values above: a number that is not written as an
  integer, a string that is not Unicode text, an object with such a string for a name. -/
  | unreadable
  deriving Repr, Inhabited

/-- The number `n`, written as an integer. -/
def Value.nat (n : Nat) : Value :=
  .integer n

/-- The value of an option, null if there is none. -/
def Value.option (f : α → Value) : Option α → Value
  | some a => f a
  | none => .null

/-- A character as it is written in a string literal: quotes, backslashes and control characters
are escaped, by their short names where they have one. -/
def escape (c : Char) : List Char :=
  match c with
  | '"' => ['\\', '"']
  | '\\' => ['\\', '\\']
  | '\x08' => ['\\', 'b']
  | '\x0c' => ['\\', 'f']
  | '\n' => ['\\', 'n']
  | '\r' => ['\\', 'r']
  | '\t' => ['\\', 't']
  | c => if c.toNat < 32 then '\\' :: 'u' :: Text.hexDigits 4 c.toNat else [c]

/-- A string literal. -/
def quote (s : String) : String :=
  String.ofList ('"' :: s.toList.flatMap escape ++ ['"'])

/-- Braces as text. -/
def openBrace : String := "\x7b"

/-- Braces as text. -/
def closeBrace : String := "\x7d"

namespace Value

mutual

/-- The text of a value without any blanks. -/
def compact : Value → String
  | null => "null"
  | bool b => if b then "true" else "false"
  | integer n => toString n
  | string s => quote s
  | array items => "[" ++ ",".intercalate (compactItems items) ++ "]"
  | object fields => openBrace ++ ",".intercalate (compactFields fields) ++ closeBrace
  | unreadable => "null"

/-- The texts of the items of an array. -/
def compactItems : List Value → List String
  | [] => []
  | v :: rest => v.compact :: compactItems rest

/-- The texts of the fields of an object. -/
def compactFields : List (String × Value) → List String
  | [] => []
  | (name, v) :: rest => (quote name ++ ":" ++ v.compact) :: compactFields rest

end

/-- A new line at an indentation of `depth` levels. -/
def newline (depth : Nat) : String :=
  "\n" ++ String.ofList (List.replicate (2 * depth) ' ')

/-- Texts between brackets, each on a line of its own; nothing stands between the brackets if
there are none. -/
def block (depth : Nat) (opening closing : String) (texts : List String) : String :=
  if texts.isEmpty then
    opening ++ closing
  else
    opening ++ newline (depth + 1) ++ ("," ++ newline (depth + 1)).intercalate texts
      ++ newline depth ++ closing

mutual

/-- The text of a value whose lines behind the first are indented by `depth` levels. -/
def prettyAt (depth : Nat) : Value → String
  | null => "null"
  | bool b => if b then "true" else "false"
  | integer n => toString n
  | string s => quote s
  | array items => block depth "[" "]" (prettyItems (depth + 1) items)
  | object fields => block depth openBrace closeBrace (prettyFields (depth + 1) fields)
  | unreadable => "null"

/-- The texts of the items of an array. -/
def prettyItems (depth : Nat) : List Value → List String
  | [] => []
  | v :: rest => v.prettyAt depth :: prettyItems depth rest

/-- The texts of the fields of an object. -/
def prettyFields (depth : Nat) : List (String × Value) → List String
  | [] => []
  | (name, v) :: rest => (quote name ++ ": " ++ v.prettyAt depth) :: prettyFields depth rest

end

/-- The text of a value with one line for each item. -/
def pretty (v : Value) : String :=
  v.prettyAt 0

end Value

end PulseDaq.Json
