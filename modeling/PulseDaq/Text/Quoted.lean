import PulseDaq.Text.Hex
import PulseDaq.Text.Unprinted

/-!
# Quoted text

Text in messages that may hold anything stands between double quotes. Quotes, backslashes and the
usual control characters are escaped by a backslash, and whatever else could not be seen by its
number in braces.
-/

namespace PulseDaq.Text

/-- A character as it stands in quoted text. -/
def quoteChar (c : Char) : List Char :=
  match c with
  | '"' => ['\\', '"']
  | '\\' => ['\\', '\\']
  | '\n' => ['\\', 'n']
  | '\r' => ['\\', 'r']
  | '\t' => ['\\', 't']
  | '\x00' => ['\\', '0']
  | c =>
    if isUnprinted c then ['\\', 'u', '\x7b'] ++ Nat.toDigits 16 c.toNat ++ ['\x7d'] else [c]

/-- Text between double quotes. -/
def quoted (text : String) : String :=
  String.ofList ('"' :: text.toList.flatMap quoteChar ++ ['"'])

end PulseDaq.Text
