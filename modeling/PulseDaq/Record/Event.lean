import PulseDaq.Record.Kind
import PulseDaq.Readout.RawEvent

/-!
# Events

An event of any record kind, and how it is taken from the raw words of a readout.

* `Event.ofRaw`: the event of a kind in a raw event.
* `Interval.observe`: markers are kept as the first and the last sample at which they were seen.
* `Event.key`: the numbers by which events are ordered.
-/

namespace PulseDaq

/-- Stands for a sample position that was never observed. -/
def unset : UInt16 := 0xFFFF

/-- The first and the last sample at which a marker was seen, `unset` if it never was. -/
structure Interval where
  start : UInt16 := unset
  stop : UInt16 := unset
  deriving DecidableEq, Repr, Inhabited

namespace Interval

/-- Whether the marker was seen. -/
def isSet (i : Interval) : Bool :=
  i.start ≠ unset

/-- The interval extended to the marker at sample `index`. -/
def observe (i : Interval) (index : UInt16) : Interval where
  start := if i.start = unset then index else i.start
  stop := index

/-- The bounds of an interval as numbers to order by. -/
def key (i : Interval) : List Nat :=
  [i.start.toNat, i.stop.toNat]

end Interval

/-- Time, channel and charge. -/
structure CompactEvent where
  time : UInt32 := 0
  channel : UInt16 := 0
  charge : UInt16 := 0
  deriving DecidableEq, Repr, Inhabited

/-- Extended time, channel, charge and baseline. -/
structure ExtendedEvent where
  time : UInt64 := 0
  channel : UInt16 := 0
  charge : UInt16 := 0
  baseline : UInt16 := 0
  deriving DecidableEq, Repr, Inhabited

/-- An extended event with its samples and where their markers were seen. -/
structure WaveformEvent where
  time : UInt64 := 0
  channel : UInt16 := 0
  charge : UInt16 := 0
  baseline : UInt16 := 0
  /-- The last sample with the trigger marker. -/
  trigger : UInt16 := 0
  gate : Interval := {}
  holdoff : Interval := {}
  overthreshold : Interval := {}
  samples : List UInt16 := []
  deriving DecidableEq, Repr, Inhabited

/-- An event of any kind. -/
inductive Event where
  | compact (e : CompactEvent)
  | extended (e : ExtendedEvent)
  | waveform (e : WaveformEvent)
  deriving DecidableEq, Repr, Inhabited

/-- Where markers were seen among the samples so far. -/
structure Markers where
  trigger : UInt16 := unset
  gate : Interval := {}
  holdoff : Interval := {}
  overthreshold : Interval := {}
  deriving DecidableEq, Repr

namespace Markers

/-- Take in the markers of the sample at `index`. -/
def observe (m : Markers) (index : UInt16) (s : Sample) : Markers where
  trigger := if s.trigger then index else m.trigger
  gate := if s.gate then m.gate.observe index else m.gate
  holdoff := if s.holdoff then m.holdoff.observe index else m.holdoff
  overthreshold := if s.overthreshold then m.overthreshold.observe index else m.overthreshold

/-- The markers of samples that stand at `index` and behind. -/
def scan (m : Markers) (index : Nat) : List Sample → Markers
  | [] => m
  | s :: rest => scan (m.observe (UInt16.ofNat index) s) (index + 1) rest

end Markers

namespace CompactEvent

/-- The event in a raw event; high-order bits of its time are left out. -/
def ofRaw (raw : RawEvent) : CompactEvent where
  time := raw.timeTag
  channel := raw.channel
  charge := raw.charge

end CompactEvent

namespace ExtendedEvent

/-- The event in a raw event. -/
def ofRaw (raw : RawEvent) : ExtendedEvent where
  time := raw.time
  channel := raw.channel
  charge := raw.charge
  baseline := raw.baseline

end ExtendedEvent

namespace WaveformEvent

/-- The event in a raw event, with the positions of the markers among its samples. -/
def ofRaw (raw : RawEvent) : WaveformEvent :=
  let samples := raw.samples
  let markers := Markers.scan {} 0 samples
  { time := raw.time
    channel := raw.channel
    charge := raw.charge
    baseline := raw.baseline
    trigger := markers.trigger
    gate := markers.gate
    holdoff := markers.holdoff
    overthreshold := markers.overthreshold
    samples := samples.map (·.value) }

end WaveformEvent

namespace Event

/-- The event of `kind` in a raw event. -/
def ofRaw (kind : RecordKind) (raw : RawEvent) : Event :=
  match kind with
  | .compact => .compact (.ofRaw raw)
  | .extended => .extended (.ofRaw raw)
  | .waveform => .waveform (.ofRaw raw)

/-- The record kind of an event. -/
def kind : Event → RecordKind
  | compact _ => .compact
  | extended _ => .extended
  | waveform _ => .waveform

/-- The samples of an event, which only waveforms have. -/
def samples : Event → List UInt16
  | waveform e => e.samples
  | _ => []

/-- Bytes of the event's record. -/
def elementSize (e : Event) : Nat :=
  e.kind.elementSize e.samples.length

/-- The event's time. -/
def time : Event → UInt64
  | compact e => e.time.toUInt64
  | extended e => e.time
  | waveform e => e.time

/-- The event's channel on its board. -/
def channel : Event → UInt16
  | compact e => e.channel
  | extended e => e.channel
  | waveform e => e.channel

/-- The event's charge. -/
def charge : Event → UInt16
  | compact e => e.charge
  | extended e => e.charge
  | waveform e => e.charge

/-- The event as the numbers by which it is ordered, the first that differs deciding: its kind,
then its values in their order, then its samples. -/
def key : Event → List Nat
  | compact e => [1, e.time.toNat, e.channel.toNat, e.charge.toNat]
  | extended e => [2, e.time.toNat, e.channel.toNat, e.charge.toNat, e.baseline.toNat]
  | waveform e =>
    [3, e.time.toNat, e.channel.toNat, e.charge.toNat, e.baseline.toNat, e.trigger.toNat]
      ++ e.gate.key ++ e.holdoff.key ++ e.overthreshold.key
      ++ e.samples.map (·.toNat)

instance : Ord Event where
  compare a b := compareOfLessAndEq a.key b.key

@[simp] theorem kind_ofRaw (kind : RecordKind) (raw : RawEvent) : (ofRaw kind raw).kind = kind := by
  cases kind <;> rfl

end Event

end PulseDaq
