/-!
# Blank characters

The characters of the Unicode property `White_Space`.

* `Text.isBlank`: whether a character is one of them.
* `Text.trimLeft`: text without the blanks in front of it; `Text.trim`: without those on both
  sides.
-/

namespace PulseDaq.Text

/-- The first and the last code point of every run of blank characters. -/
def blankRanges : List (Nat × Nat) :=
  [(0x9, 0xD), (0x20, 0x20), (0x85, 0x85), (0xA0, 0xA0), (0x1680, 0x1680), (0x2000, 0x200A),
    (0x2028, 0x2029), (0x202F, 0x202F), (0x205F, 0x205F), (0x3000, 0x3000)]

/-- Whether a character is blank. -/
def isBlank (c : Char) : Bool :=
  blankRanges.any fun (first, last) => first ≤ c.toNat && c.toNat ≤ last

/-- Text without the blanks in front of it. -/
def trimLeft (text : List Char) : List Char :=
  text.dropWhile isBlank

/-- Text without the blanks on both sides. -/
def trim (text : String) : String :=
  String.ofList (trimLeft (trimLeft text.toList).reverse).reverse

end PulseDaq.Text
