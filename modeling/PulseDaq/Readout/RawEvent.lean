import PulseDaq.Bytes
import PulseDaq.Group
import PulseDaq.Readout.Format
import PulseDaq.Readout.Sample

/-!
# Raw events

An event as it stands in a group aggregate: a window of as many words as its format's stride.

```text
time tag | sample words (waveform) | extras (baseline, high time bits) | channel and charge
```
-/

namespace PulseDaq

/-- The words of one event, with the group and the format of the aggregate they stand in. -/
structure RawEvent where
  group : Group
  format : GroupFormat
  words : List UInt32
  deriving DecidableEq, Repr

namespace RawEvent

/-- Word `i` of the event, zero behind its end. -/
def word (e : RawEvent) (i : Nat) : UInt32 :=
  e.words.getD i 0

/-- The event's bytes as they stand in the readout. -/
def bytes (e : RawEvent) : Bytes :=
  Bytes.ofWords e.words

/-- The last word of the event, which holds its channel and charge. -/
def lastWord (e : RawEvent) : UInt32 :=
  e.word (e.format.stride - 1)

/-- The extras word, zero if the format has none. -/
def extrasWord (e : RawEvent) : UInt32 :=
  if e.format.extras then e.word (e.format.stride - 2) else 0

/-- The 32-bit trigger time tag. -/
def timeTag (e : RawEvent) : UInt32 :=
  e.word 0

/-- The time tag extended by the sixteen high-order bits of the extras. -/
def time (e : RawEvent) : UInt64 :=
  UInt64.ofNat (UInt32.size * Word.field e.extrasWord 0 16 + e.timeTag.toNat)

/-- The baseline, in the high half of the extras. -/
def baseline (e : RawEvent) : UInt16 :=
  UInt16.ofNat (Word.field e.extrasWord 16 16)

/-- The channel on the board: the four high bits of the last word, which number it within the
group, joined to the group's first channel. -/
def channel (e : RawEvent) : UInt16 :=
  UInt16.ofNat (channelsPerGroup * e.group.val ||| Word.field e.lastWord 28 4)

/-- The charge, in the low half of the last word. -/
def charge (e : RawEvent) : UInt16 :=
  UInt16.ofNat (Word.field e.lastWord 0 16)

/-- The samples in order. -/
def samples (e : RawEvent) : List Sample :=
  Sample.unpack ((e.words.drop 1).take e.format.sampleWords)

end RawEvent

end PulseDaq
