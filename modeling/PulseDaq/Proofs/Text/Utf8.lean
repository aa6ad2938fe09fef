import PulseDaq.Text.Utf8

/-!
# Text through UTF-8 and back

* `Utf8.decode_encode`: the bytes of a text have no malformed place, and decode to its characters.
-/

namespace PulseDaq.Utf8

/-- Behind some bytes the first character of a text is decoded as it is. -/
theorem utf8DecodeChar?_append (before : ByteArray) (c : Char) (rest : List Char) :
    (before ++ (c :: rest).utf8Encode).utf8DecodeChar? before.size = some c := by
  rw [ByteArray.utf8DecodeChar?_eq_utf8DecodeChar?_extract, ByteArray.size_append,
    ByteArray.extract_append_eq_right rfl rfl, List.utf8DecodeChar?_utf8Encode_cons]

/-- Decoding goes through a text character by character, whatever stands in front of it. -/
theorem decodeFrom_append (before : ByteArray) (text : List Char) (decoded : Array (Option Char)) :
    decodeFrom (before ++ text.utf8Encode) before.size decoded =
      decoded ++ (text.map some).toArray := by
  induction text generalizing before decoded with
  | nil =>
    unfold decodeFrom
    simp
  | cons c rest ih =>
    have hsize : [c].utf8Encode.size = c.utf8Size := by
      rw [List.utf8Encode_singleton, List.size_toByteArray, String.length_utf8EncodeChar]
    have hnext := ih (before ++ [c].utf8Encode) (decoded.push (some c))
    rw [ByteArray.append_assoc, ← List.utf8Encode_cons, ByteArray.size_append, hsize] at hnext
    have hpos := c.utf8Size_pos
    unfold decodeFrom
    rw [if_pos, utf8DecodeChar?_append]
    · simp [hnext]
    · rw [List.utf8Encode_cons, ByteArray.size_append, ByteArray.size_append, hsize]
      omega

/-- Text reads back from its bytes. -/
theorem decode_encode (text : String) : decode (encode text) = text.toList.map some := by
  have h := decodeFrom_append .empty text.toList #[]
  rw [ByteArray.empty_append, String.utf8Encode_toList] at h
  unfold decode encode
  rw [Array.toArray_toList]
  show (decodeFrom text.toByteArray ByteArray.empty.size #[]).toList = _
  rw [h]
  simp

end PulseDaq.Utf8
