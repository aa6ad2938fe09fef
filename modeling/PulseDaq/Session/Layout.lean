import PulseDaq.Group
import PulseDaq.Readout.Decoder
import PulseDaq.Record.Kind

/-!
# Event geometry of a session

What the events of a board look like, decided once from its registers.

* `Layout.ofRegisters`: the geometry that the registers ask for.
* `Layout.windowBytes`: the readout that an event over the full window of every group takes.
-/

namespace PulseDaq

/-- What the events of a board look like. -/
structure Layout where
  kind : RecordKind
  /-- The enabled groups, in ascending order. -/
  groups : List Group
  format : GroupFormat
  /-- Bytes of a record. -/
  elementSize : Nat
  /-- Samples in the acquisition window of every enabled group. -/
  windows : List UInt32
  deriving DecidableEq, Repr

/-- The trigger settings of a group, in samples. -/
structure TriggerSettings where
  preTrigger : UInt32
  holdOff : UInt32
  gateWidth : UInt32
  gateOffset : UInt32
  deriving DecidableEq, Repr

namespace TriggerSettings

/-- The largest number of a register. -/
def largest : Nat := UInt32.size - 1

/-- Samples in the acquisition window of a group, as many as a register can say: twice the longest
of the record, the pre-trigger with the hold-off, and the gate behind its offset with the
pre-trigger. -/
def window (t : TriggerSettings) (recordLength : UInt32) : UInt32 :=
  let triggered := min (t.preTrigger.toNat + t.holdOff.toNat) largest
  let gated := min (t.gateWidth.toNat - t.gateOffset.toNat + t.preTrigger.toNat) largest
  UInt32.ofNat (min (2 * max (max recordLength.toNat triggered) gated) largest)

end TriggerSettings

namespace Layout

/-- The geometry of events with these flags and this many samples. -/
def ofRegisters (extras waveform : Bool) (recordLength : UInt32)
    (groups : List (Group × TriggerSettings)) : Layout :=
  let format := GroupFormat.withSamples extras recordLength.toNat
  let kind := RecordKind.ofFlags extras waveform
  { kind, format
    groups := groups.map (·.1)
    elementSize := kind.elementSize format.samples
    windows := groups.map fun (_, t) => t.window recordLength }

/-- Words of an event besides its samples. -/
def fixedWords (l : Layout) : Nat :=
  l.format.stride - l.format.sampleWords

/-- Words of a group with one event over its full window, two samples a word. -/
def windowWords (l : Layout) (window : UInt32) : Nat :=
  Decoder.headerWords + l.fixedWords + (window.toNat + 1) / 2

/-- Bytes of a board aggregate with an event over the full window of every enabled group. -/
def windowBytes (l : Layout) : Nat :=
  4 * (Decoder.headerWords + l.windows.foldr (fun w n => l.windowWords w + n) 0)

end Layout

end PulseDaq
