import PulseDaq.Bits

/-!
# Event formats

Every group aggregate states the format of its events in one word: whether they carry the extras
word, whether they carry samples, and how many.

* `GroupFormat.toWord`/`GroupFormat.ofWord?`: the format word, and the format read back from it.
* `GroupFormat.stride`: the size of one event in words.
* `GroupFormat.withSamples`: the smallest format that carries a given number of samples.
-/

namespace PulseDaq

/-- The format of the events of one group. -/
structure GroupFormat where
  /-- Events carry the baseline and the high bits of their time. -/
  extras : Bool := false
  /-- Events carry samples. -/
  waveform : Bool := false
  /-- Sample count in units of eight samples, that is four sample words. -/
  sampleField : UInt16 := 0
  deriving DecidableEq, Repr, Inhabited

namespace GroupFormat

/-- The sample field has twelve bits in a format word. -/
def sampleFieldBits : Nat := 12

/-- Most samples per event that the twelve bits of the sample field can describe. -/
def maxSamples : Nat := 8 * (Nat.pow 2 sampleFieldBits - 1)

/-- A format whose sample field is cut to the bits that a format word has for it. -/
def ofField (extras waveform : Bool) (sampleField : UInt16) : GroupFormat where
  extras := extras
  waveform := waveform
  sampleField := UInt16.ofNat (sampleField.toNat % Nat.pow 2 sampleFieldBits)

/-- The format carrying at least `samples` samples per event, for counts up to `maxSamples`. -/
def withSamples (extras : Bool) (samples : Nat) : GroupFormat :=
  ofField extras (samples > 0) (UInt16.ofNat ((samples + 7) / 8))

/-- Sample words per event, each packing two samples. -/
def sampleWords (f : GroupFormat) : Nat :=
  if f.waveform then 4 * f.sampleField.toNat else 0

/-- Samples per event. -/
def samples (f : GroupFormat) : Nat :=
  2 * f.sampleWords

/-- Words of the extras, one if there are any. -/
def extraWords (f : GroupFormat) : Nat :=
  if f.extras then 1 else 0

/-- Event size in words: the time, the samples, the extras and the channel with its charge. -/
def stride (f : GroupFormat) : Nat :=
  2 + f.extraWords + f.sampleWords

/-- The format word: bit 31 clear, bits 30 and 29 set, then the two flags and, in the low twelve
bits, the sample field. -/
def toWord (f : GroupFormat) : UInt32 :=
  UInt32.ofNat (Word.weight true 30 + Word.weight true 29 + Word.weight f.extras 28
    + Word.weight f.waveform 27 + f.sampleField.toNat % Nat.pow 2 sampleFieldBits)

/-- The format in a format word; `none` unless its three highest bits are clear, set and set. -/
def ofWord? (w : UInt32) : Option GroupFormat :=
  if Word.bit w 31 || !Word.bit w 30 || !Word.bit w 29 then none
  else some {
    extras := Word.bit w 28
    waveform := Word.bit w 27
    sampleField := UInt16.ofNat (Word.field w 0 sampleFieldBits) }

/-- An event has at least its time and its channel word. -/
theorem two_le_stride (f : GroupFormat) : 2 ≤ f.stride := by
  unfold stride; omega

/-- The sample field of a format that is made for a sample count has twelve bits. -/
theorem sampleField_withSamples_le (extras : Bool) (n : Nat) :
    (withSamples extras n).sampleField.toNat ≤ Nat.pow 2 sampleFieldBits - 1 := by
  have hlt : (UInt16.ofNat ((n + 7) / 8)).toNat % Nat.pow 2 sampleFieldBits <
      Nat.pow 2 sampleFieldBits := Nat.mod_lt _ (by decide)
  rw [withSamples, ofField, UInt16.toNat_ofNat', Nat.mod_eq_of_lt]
  · omega
  · exact Nat.lt_trans hlt (by decide)

/-- Nor has it more samples than a format word can describe. -/
theorem samples_withSamples_le (extras : Bool) (n : Nat) :
    (withSamples extras n).samples ≤ maxSamples := by
  have hfield := sampleField_withSamples_le extras n
  unfold samples sampleWords maxSamples
  split <;> omega

/-- Reading a format word back gives the format, with its sample field cut to twelve bits. -/
theorem ofWord?_toWord (f : GroupFormat) :
    ofWord? f.toWord = some (ofField f.extras f.waveform f.sampleField) := by
  obtain ⟨extras, waveform, field⟩ := f
  cases extras <;> cases waveform <;>
    simp [ofWord?, toWord, ofField, Word.bit, Word.field, Word.weight, sampleFieldBits] <;>
    grind

end GroupFormat

end PulseDaq
