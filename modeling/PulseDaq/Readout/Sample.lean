import PulseDaq.Bits

/-!
# Samples

A waveform sample has twelve bits; the four bits above it in its half word mark what the trigger
logic was doing at that moment. Two samples share a word, the earlier one in the low half.

* `Sample.toHalf`/`Sample.ofHalf`: one sample in its sixteen bits, and back.
* `Sample.pack`/`Sample.unpack`: samples as words, and back.
-/

namespace PulseDaq

/-- A sample and its marker bits. -/
structure Sample where
  value : UInt16 := 0
  gate : Bool := false
  trigger : Bool := false
  holdoff : Bool := false
  overthreshold : Bool := false
  deriving DecidableEq, Repr, Inhabited

namespace Sample

/-- Bits of a sample's value; the marker bits follow them. -/
def valueBits : Nat := 12

/-- The value in the low twelve bits, then gate, trigger, hold-off and over-threshold. A value
that is too large is cut to its low bits. -/
def toHalf (s : Sample) : UInt16 :=
  UInt16.ofNat (s.value.toNat % Nat.pow 2 valueBits + Word.weight s.gate 12
    + Word.weight s.trigger 13 + Word.weight s.holdoff 14 + Word.weight s.overthreshold 15)

/-- The sample in a half word. -/
def ofHalf (half : UInt16) : Sample where
  value := UInt16.ofNat (half.toNat % Nat.pow 2 valueBits)
  gate := half.toNat.testBit 12
  trigger := half.toNat.testBit 13
  holdoff := half.toNat.testBit 14
  overthreshold := half.toNat.testBit 15

/-- Two half words as one word. -/
def joinHalves (low high : UInt16) : UInt32 :=
  UInt32.ofNat (low.toNat + UInt16.size * high.toNat)

/-- Pack half words into exactly `words` words, two per word, padding with zeros and leaving out
what does not fit. -/
def packHalves : (words : Nat) → List UInt16 → List UInt32
  | 0, _ => []
  | words + 1, low :: high :: rest => joinHalves low high :: packHalves words rest
  | words + 1, [low] => joinHalves low 0 :: packHalves words []
  | words + 1, [] => 0 :: packHalves words []

/-- Samples as exactly `words` words. -/
def pack (samples : List Sample) (words : Nat) : List UInt32 :=
  packHalves words (samples.map toHalf)

/-- The two samples of a word, the earlier one first. -/
def ofWord (w : UInt32) : List Sample :=
  [ofHalf (UInt16.ofNat (Word.field w 0 16)), ofHalf (UInt16.ofNat (Word.field w 16 16))]

/-- The samples in a run of words. -/
def unpack (words : List UInt32) : List Sample :=
  words.flatMap ofWord

@[simp] theorem length_packHalves (words : Nat) (halves : List UInt16) :
    (packHalves words halves).length = words := by
  fun_induction packHalves words halves <;> simp_all

@[simp] theorem length_pack (samples : List Sample) (words : Nat) :
    (pack samples words).length = words := by
  simp [pack]

theorem toNat_toHalf (s : Sample) :
    s.toHalf.toNat = s.value.toNat % Nat.pow 2 valueBits + Word.weight s.gate 12
      + Word.weight s.trigger 13 + Word.weight s.holdoff 14 + Word.weight s.overthreshold 15 := by
  have hw (on : Bool) (i : Nat) : Word.weight on i ≤ Nat.pow 2 i := by
    cases on <;> simp [Word.weight]
  have h12 := hw s.gate 12
  have h13 := hw s.trigger 13
  have h14 := hw s.holdoff 14
  have h15 := hw s.overthreshold 15
  rw [toHalf, UInt16.toNat_ofNat', Nat.mod_eq_of_lt]
  simp only [valueBits, Nat.pow_eq, Nat.reducePow] at h12 h13 h14 h15 ⊢
  omega

/-- A sample survives its half word, its value cut to twelve bits. -/
theorem ofHalf_toHalf (s : Sample) :
    ofHalf s.toHalf = { s with value := UInt16.ofNat (s.value.toNat % Nat.pow 2 valueBits) } := by
  have hb (on : Bool) (i : Nat) : Word.weight on i = Nat.pow 2 i * (if on then 1 else 0) := by
    cases on <;> simp [Word.weight]
  have h01 (on : Bool) : (if on then 1 else 0) ≤ 1 := by cases on <;> simp
  have hdec (on : Bool) : decide ((if on then 1 else 0) = 1) = on := by cases on <;> rfl
  have hh := toNat_toHalf s
  simp only [hb, valueBits, Nat.pow_eq, Nat.reducePow] at hh
  have hg := h01 s.gate
  have ht := h01 s.trigger
  have ho := h01 s.holdoff
  have hv := h01 s.overthreshold
  have e0 : s.toHalf.toNat % 4096 = s.value.toNat % 4096 := by omega
  have e1 : s.toHalf.toNat / 4096 % 2 = if s.gate then 1 else 0 := by omega
  have e2 : s.toHalf.toNat / 8192 % 2 = if s.trigger then 1 else 0 := by omega
  have e3 : s.toHalf.toNat / 16384 % 2 = if s.holdoff then 1 else 0 := by omega
  have e4 : s.toHalf.toNat / 32768 % 2 = if s.overthreshold then 1 else 0 := by omega
  simp only [ofHalf, valueBits, Nat.testBit_eq_decide_div_mod_eq, Nat.pow_eq, Nat.reducePow, e0, e1,
    e2, e3, e4, hdec]

end Sample

end PulseDaq
