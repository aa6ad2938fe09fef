/-!
# Hexadecimal text

Words in messages are written with the mark `0x` and all of their eight digits; bytes have two
digits each.

* `Text.hexOfBytes`, `Text.bytesOfHex`: bytes as text, and back.
-/

namespace PulseDaq.Text

/-- The lower case hexadecimal digit for a number below sixteen. -/
def hexDigit (n : Nat) : Char :=
  if n < 10 then Char.ofNat (48 + n) else Char.ofNat (87 + n)

/-- The `count` low hexadecimal digits of `n`, most significant first. -/
def hexDigits : (count : Nat) → (n : Nat) → List Char
  | 0, _ => []
  | count + 1, n => hexDigits count (n / 16) ++ [hexDigit (n % 16)]

/-- A word as `0x` and eight digits. -/
def hexWord (w : UInt32) : String :=
  "0x" ++ String.ofList (hexDigits 8 w.toNat)

/-- The digits of `n` without leading zeros; zero has one digit. -/
def hexNat (n : Nat) : String :=
  String.ofList (Nat.toDigits 16 n)

/-- Bytes with two digits each. -/
def hexOfBytes (bytes : List UInt8) : String :=
  String.ofList (bytes.flatMap fun b => hexDigits 2 b.toNat)

/-- The number of a lower case digit. -/
def hexDigitValue (c : Char) : Nat :=
  if c.isDigit then c.toNat - '0'.toNat else c.toNat - 'a'.toNat + 10

/-- Bytes read so far, and those of further pairs of digits. -/
def pushHex (bytes : Array UInt8) : List Char → Array UInt8
  | a :: b :: rest =>
    pushHex (bytes.push (UInt8.ofNat (16 * hexDigitValue a + hexDigitValue b))) rest
  | _ => bytes

/-- The bytes of a text with two digits for each. -/
def bytesOfHex (text : String) : List UInt8 :=
  (pushHex #[] text.toList).toList

end PulseDaq.Text
