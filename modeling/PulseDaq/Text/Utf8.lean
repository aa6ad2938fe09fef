import PulseDaq.Bytes

/-!
# UTF-8

Text as bytes, and bytes as text in which malformed places stay visible.

* `Utf8.encode`: the bytes of a text.
* `Utf8.decode`: the characters of some bytes, `none` for every malformed place.
* `Utf8.lossy`: the text of some bytes with a replacement character at every malformed place.
-/

namespace PulseDaq.Utf8

/-- The bytes of a text. -/
def encode (text : String) : Bytes :=
  text.toUTF8.data.toList

/-- The least and the greatest byte that may follow a first byte. -/
def second (first : UInt8) : UInt8 × UInt8 :=
  if first = 0xe0 then (0xa0, 0xbf)
  else if first = 0xed then (0x80, 0x9f)
  else if first = 0xf0 then (0x90, 0xbf)
  else if first = 0xf4 then (0x80, 0x8f)
  else (0x80, 0xbf)

/-- How many bytes of a character follow its first byte. -/
def followers (first : UInt8) : Nat :=
  if 0xc2 ≤ first ∧ first ≤ 0xdf then 1
  else if 0xe0 ≤ first ∧ first ≤ 0xef then 2
  else if 0xf0 ≤ first ∧ first ≤ 0xf4 then 3
  else 0

/-- How many of at most `count` bytes go on with a character, the next of them between two
bounds. -/
def going (bytes : ByteArray) (i : Nat) (bounds : UInt8 × UInt8) : (count : Nat) → Nat
  | 0 => 0
  | count + 1 =>
    match bytes[i]? with
    | none => 0
    | some b =>
      if bounds.1 ≤ b ∧ b ≤ bounds.2 then going bytes (i + 1) (0x80, 0xbf) count + 1 else 0

/-- The bytes behind byte `i` that belong to the same malformed place: as many as could have gone
on with a character. -/
def malformed (bytes : ByteArray) (i : Nat) : Nat :=
  match bytes[i]? with
  | none => 0
  | some first => going bytes (i + 1) (second first) (followers first)

/-- The characters from byte `i` on, behind those decoded before. -/
def decodeFrom (bytes : ByteArray) (i : Nat) (decoded : Array (Option Char)) :
    Array (Option Char) :=
  if i < bytes.size then
    match bytes.utf8DecodeChar? i with
    | some c => decodeFrom bytes (i + c.utf8Size) (decoded.push (some c))
    | none => decodeFrom bytes (i + 1 + malformed bytes i) (decoded.push none)
  else
    decoded
termination_by bytes.size - i
decreasing_by
  · have := c.utf8Size_pos
    omega
  · omega

/-- The characters of some bytes, `none` for malformed places. -/
def decode (bytes : Bytes) : List (Option Char) :=
  (decodeFrom ⟨bytes.toArray⟩ 0 #[]).toList

/-- The text of some bytes as far as they are well-formed. -/
def lossy (bytes : Bytes) : String :=
  String.ofList ((decode bytes).map (·.getD '\ufffd'))

end PulseDaq.Utf8
