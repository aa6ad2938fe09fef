import PulseDaq.Json.Value

/-!
# JSON tokens

Text is cut into tokens character by character. The text is given as a list in which `none` is a
malformed place; such a place is allowed in string literals only.

* `Json.Lexer.step`: what one character does to the lexer.
* `Json.tokens?`: the tokens of a text, `none` if it has no reading as tokens.
-/

namespace PulseDaq.Json

/-- The smallest pieces of JSON text. -/
inductive Token where
  | openArray
  | closeArray
  | openObject
  | closeObject
  | comma
  | colon
  /-- A string literal; `none` if it is not Unicode text. -/
  | string (text : Option String)
  /-- Another literal that is a value by itself. -/
  | literal (v : Value)
  deriving Repr

/-- One element of a string literal. -/
inductive Piece where
  /-- A character, written as it is or by a short escape. -/
  | char (c : Char)
  /-- A UTF-16 unit, written by its number. -/
  | unit (n : Nat)
  /-- A malformed place. -/
  | malformed
  deriving Repr, DecidableEq

/-- Whether a UTF-16 unit is the first half of a pair. -/
def isHighSurrogate (n : Nat) : Bool :=
  0xD800 ≤ n && n < 0xDC00

/-- Whether a UTF-16 unit is the second half of a pair. -/
def isLowSurrogate (n : Nat) : Bool :=
  0xDC00 ≤ n && n < 0xE000

/-- The characters of a string literal, behind those found before; `none` if it has a malformed
place or half of a pair. -/
def assemble (found : Array Char) : List Piece → Option String
  | [] => some (String.ofList found.toList)
  | .char c :: rest => assemble (found.push c) rest
  | .malformed :: _ => none
  | .unit high :: .unit low :: rest =>
    if isHighSurrogate high then
      if isLowSurrogate low then
        assemble (found.push (Char.ofNat (0x10000 + 0x400 * (high - 0xD800) + (low - 0xDC00)))) rest
      else
        none
    else if isLowSurrogate high then
      none
    else
      assemble (found.push (Char.ofNat high)) (.unit low :: rest)
  | .unit n :: rest =>
    if isHighSurrogate n || isLowSurrogate n then none
    else assemble (found.push (Char.ofNat n)) rest
termination_by pieces => pieces.length

/-! ## Numbers -/

/-- Digits and nothing else, at least one. -/
def isDigits (cs : List Char) : Bool :=
  !cs.isEmpty && cs.all Char.isDigit

/-- The digits of an integer: no leading zero. -/
def isInteger (cs : List Char) : Bool :=
  isDigits cs && (cs.length == 1 || cs.head? != some '0')

/-- The number that decimal digits stand for. -/
def decimal (cs : List Char) : Nat :=
  cs.foldl (fun n c => 10 * n + (c.toNat - '0'.toNat)) 0

/-- What follows the integer part of a number: a fraction, an exponent, or both. -/
def isTail (cs : List Char) : Bool :=
  match cs with
  | '.' :: rest =>
    isDigits (rest.takeWhile Char.isDigit) && isExponent (rest.dropWhile Char.isDigit)
  | _ => isExponent cs
where
  /-- Nothing, or an exponent with or without a sign. -/
  isExponent : List Char → Bool
    | [] => true
    | e :: '+' :: rest => (e == 'e' || e == 'E') && isDigits rest
    | e :: '-' :: rest => (e == 'e' || e == 'E') && isDigits rest
    | e :: rest => (e == 'e' || e == 'E') && isDigits rest

/-- The value of a number literal without its sign. Negative zero is no integer. -/
def unsignedNumber? (negative : Bool) (cs : List Char) : Option Value :=
  let integer := cs.takeWhile Char.isDigit
  let tail := cs.dropWhile Char.isDigit
  if !isInteger integer then none
  else if tail.isEmpty then
    let n := decimal integer
    some (if negative then (if n = 0 then .unreadable else .integer (-n)) else .integer n)
  else if isTail tail then some .unreadable
  else none

/-- The value of a number literal. -/
def number? : List Char → Option Value
  | '-' :: rest => unsignedNumber? true rest
  | cs => unsignedNumber? false cs

/-- The value of a literal that is a word. -/
def word? (cs : List Char) : Option Value :=
  match String.ofList cs with
  | "null" => some .null
  | "true" => some (.bool true)
  | "false" => some (.bool false)
  | _ => none

/-! ## The lexer -/

/-- What the lexer is in the middle of. Characters and pieces are held last one first. -/
inductive Lexer.Mode where
  /-- Between two tokens. -/
  | between
  | number (cs : List Char)
  | word (cs : List Char)
  | string (pieces : List Piece)
  /-- Behind a backslash. -/
  | escape (pieces : List Piece)
  /-- In a numbered escape: how many digits are to come, and the number so far. -/
  | unit (pieces : List Piece) (digits : Nat) (n : Nat)
  deriving Repr

/-- A lexer: what it is in the middle of, and the tokens found so far. -/
structure Lexer where
  mode : Lexer.Mode := .between
  tokens : Array Token := #[]

namespace Lexer

/-- Characters of which numbers consist. -/
def isNumberChar (c : Char) : Bool :=
  c.isDigit || c == '-' || c == '+' || c == '.' || c == 'e' || c == 'E'

/-- White space between tokens. -/
def isBlank (c : Char) : Bool :=
  c == ' ' || c == '\n' || c == '\t' || c == '\r'

/-- The value of a hexadecimal digit. -/
def hexValue? (c : Char) : Option Nat :=
  if c.isDigit then some (c.toNat - '0'.toNat)
  else if 'a' ≤ c && c ≤ 'f' then some (c.toNat - 'a'.toNat + 10)
  else if 'A' ≤ c && c ≤ 'F' then some (c.toNat - 'A'.toNat + 10)
  else none

/-- The character that a short escape stands for. -/
def shortEscape? : Char → Option Char
  | '"' => some '"'
  | '\\' => some '\\'
  | '/' => some '/'
  | 'b' => some '\x08'
  | 'f' => some '\x0c'
  | 'n' => some '\n'
  | 'r' => some '\r'
  | 't' => some '\t'
  | _ => none

/-- A character between two tokens. -/
def start (tokens : Array Token) (c : Char) : Option Lexer :=
  match c with
  | '[' => some { tokens := tokens.push .openArray }
  | ']' => some { tokens := tokens.push .closeArray }
  | '\x7b' => some { tokens := tokens.push .openObject }
  | '\x7d' => some { tokens := tokens.push .closeObject }
  | ',' => some { tokens := tokens.push .comma }
  | ':' => some { tokens := tokens.push .colon }
  | '"' => some { mode := .string [], tokens := tokens }
  | c =>
    if isBlank c then some { tokens := tokens }
    else if c.isDigit || c == '-' then some { mode := .number [c], tokens := tokens }
    else if c.isAlpha then some { mode := .word [c], tokens := tokens }
    else none

/-- End the number or word that the lexer is in the middle of. -/
def finish (l : Lexer) : Option (Array Token) :=
  match l.mode with
  | .between => some l.tokens
  | .number cs => (number? cs.reverse).map fun v => l.tokens.push (.literal v)
  | .word cs => (word? cs.reverse).map fun v => l.tokens.push (.literal v)
  | _ => none

/-- What one character does. -/
def step (l : Lexer) (c : Option Char) : Option Lexer :=
  match l.mode, c with
  | .string pieces, none => some { l with mode := .string (.malformed :: pieces) }
  | _, none => none
  | .string pieces, some c =>
    if c == '"' then some { tokens := l.tokens.push (.string (assemble #[] pieces.reverse)) }
    else if c == '\\' then some { l with mode := .escape pieces }
    else if c.toNat < 32 then none
    else some { l with mode := .string (.char c :: pieces) }
  | .escape pieces, some c =>
    if c == 'u' then some { l with mode := .unit pieces 4 0 }
    else (shortEscape? c).map fun e => { l with mode := .string (.char e :: pieces) }
  | .unit pieces digits n, some c =>
    (hexValue? c).map fun d =>
      let n := 16 * n + d
      if digits ≤ 1 then { l with mode := .string (.unit n :: pieces) }
      else { l with mode := .unit pieces (digits - 1) n }
  | .number cs, some c =>
    if isNumberChar c then some { l with mode := .number (c :: cs) }
    else l.finish.bind fun tokens => start tokens c
  | .word cs, some c =>
    if c.isAlpha then some { l with mode := .word (c :: cs) }
    else l.finish.bind fun tokens => start tokens c
  | .between, some c => start l.tokens c

end Lexer

/-- The tokens of a text; `none` if it cannot be cut into tokens. -/
def tokens? (text : List (Option Char)) : Option (List Token) := do
  let l ← text.foldlM Lexer.step {}
  let tokens ← l.finish
  return tokens.toList

end PulseDaq.Json
