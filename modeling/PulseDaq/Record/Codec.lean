import PulseDaq.Record.Event

/-!
# Records as bytes

Every event has one packed form, used in memory and in storage alike.

* `Event.encode`: the record of an event; `Event.length_encode` is its size.
* `Event.read?`: the event of a kind at the front of some bytes.
* `Event.read?_encode`: a record reads back as its event, whatever follows it.
-/

namespace PulseDaq

/-- Reading values off the front of some bytes; fails when they run short. -/
abbrev Reader := StateT Bytes Option

namespace Reader

/-- The number in the next `width` bytes. -/
def number (width : Nat) : Reader Nat :=
  Bytes.take? width

def uint16 : Reader UInt16 :=
  return UInt16.ofNat (← number 2)

def uint32 : Reader UInt32 :=
  return UInt32.ofNat (← number 4)

def uint64 : Reader UInt64 :=
  return UInt64.ofNat (← number 8)

/-- The next `count` 16-bit values, behind those read before. -/
def uint16s (values : Array UInt16) : (count : Nat) → Reader (List UInt16)
  | 0 => return values.toList
  | count + 1 => do
    let value ← uint16
    uint16s (values.push value) count

end Reader

namespace Bytes

def ofUInt16 (x : UInt16) : Bytes :=
  ofNat 2 x.toNat

def ofUInt32 (x : UInt32) : Bytes :=
  ofNat 4 x.toNat

def ofUInt64 (x : UInt64) : Bytes :=
  ofNat 8 x.toNat

end Bytes

namespace Interval

/-- Start, then end. -/
def encode (i : Interval) : Bytes :=
  Bytes.ofUInt16 i.start ++ Bytes.ofUInt16 i.stop

/-- Read what `encode` writes. -/
def read : Reader Interval := do
  let start ← Reader.uint16
  let stop ← Reader.uint16
  return { start, stop }

end Interval

namespace CompactEvent

/-- The record of a compact event. -/
def encode (e : CompactEvent) : Bytes :=
  Bytes.ofUInt32 e.time ++ (Bytes.ofUInt16 e.channel ++ Bytes.ofUInt16 e.charge)

/-- Read a compact record. -/
def read : Reader CompactEvent := do
  let time ← Reader.uint32
  let channel ← Reader.uint16
  let charge ← Reader.uint16
  return { time, channel, charge }

end CompactEvent

namespace ExtendedEvent

/-- The record of an extended event. -/
def encode (e : ExtendedEvent) : Bytes :=
  Bytes.ofUInt64 e.time
    ++ (Bytes.ofUInt16 e.channel ++ (Bytes.ofUInt16 e.charge ++ Bytes.ofUInt16 e.baseline))

/-- Read an extended record. -/
def read : Reader ExtendedEvent := do
  let time ← Reader.uint64
  let channel ← Reader.uint16
  let charge ← Reader.uint16
  let baseline ← Reader.uint16
  return { time, channel, charge, baseline }

end ExtendedEvent

namespace WaveformEvent

/-- The record of a waveform event in front of its samples. Their count is kept modulo `2 ^ 16`. -/
def encodeHeader (e : WaveformEvent) : Bytes :=
  ExtendedEvent.encode ⟨e.time, e.channel, e.charge, e.baseline⟩
    ++ (Bytes.ofUInt16 (UInt16.ofNat e.samples.length) ++ (Bytes.ofUInt16 e.trigger
    ++ (e.gate.encode ++ (e.holdoff.encode ++ e.overthreshold.encode))))

/-- The record of a waveform event. -/
def encode (e : WaveformEvent) : Bytes :=
  e.encodeHeader ++ e.samples.flatMap Bytes.ofUInt16

/-- Read a waveform record, with as many samples as it states. -/
def read : Reader WaveformEvent := do
  let e ← ExtendedEvent.read
  let count ← Reader.uint16
  let trigger ← Reader.uint16
  let gate ← Interval.read
  let holdoff ← Interval.read
  let overthreshold ← Interval.read
  let samples ← Reader.uint16s #[] count.toNat
  return {
    time := e.time
    channel := e.channel
    charge := e.charge
    baseline := e.baseline
    trigger := trigger
    gate := gate
    holdoff := holdoff
    overthreshold := overthreshold
    samples := samples }

end WaveformEvent

namespace Event

/-- The record of an event. -/
def encode : Event → Bytes
  | compact e => e.encode
  | extended e => e.encode
  | waveform e => e.encode

/-- Read a record of `kind`. -/
def read (kind : RecordKind) : Reader Event :=
  match kind with
  | .compact => compact <$> CompactEvent.read
  | .extended => extended <$> ExtendedEvent.read
  | .waveform => waveform <$> WaveformEvent.read

/-- The event of `kind` at the front of `bytes`; `none` if they are too short. Bytes behind the
record do not matter. -/
def read? (kind : RecordKind) (bytes : Bytes) : Option Event :=
  ((read kind).run bytes).map (·.1)

/-- Events as records, back to back. -/
def encodeAll (events : List Event) : Bytes :=
  events.flatMap encode

end Event

/-! ## What is written reads back -/

namespace Reader

@[simp] theorem pure_apply (a : α) (bytes : Bytes) : (pure a : Reader α) bytes = some (a, bytes) :=
  rfl

@[simp] theorem bind_apply (read : Reader α) (next : α → Reader β) (bytes : Bytes) :
    (read >>= next) bytes = (read bytes).bind fun p => next p.1 p.2 :=
  rfl

@[simp] theorem map_apply (f : α → β) (read : Reader α) (bytes : Bytes) :
    (f <$> read) bytes = (read bytes).map fun p => (f p.1, p.2) := by
  cases h : read bytes <;> simp [Functor.map, StateT.map, h]

theorem number_append (bytes behind : Bytes) :
    number bytes.length (bytes ++ behind) = some (bytes.toNat, behind) :=
  Bytes.take?_append bytes behind

private theorem number_ofNat (width : Nat) {n : Nat} (h : n < Bytes.bound width) (behind : Bytes) :
    number width (Bytes.ofNat width n ++ behind) = some (n, behind) := by
  have := number_append (Bytes.ofNat width n) behind
  rwa [Bytes.length_ofNat, Bytes.toNat_ofNat, Nat.mod_eq_of_lt h] at this

@[simp] theorem uint16_append (x : UInt16) (behind : Bytes) :
    uint16 (Bytes.ofUInt16 x ++ behind) = some (x, behind) := by
  have h := number_ofNat 2 x.toNat_lt behind
  simp [uint16, Bytes.ofUInt16, h]

@[simp] theorem uint32_append (x : UInt32) (behind : Bytes) :
    uint32 (Bytes.ofUInt32 x ++ behind) = some (x, behind) := by
  have h := number_ofNat 4 x.toNat_lt behind
  simp [uint32, Bytes.ofUInt32, h]

@[simp] theorem uint64_append (x : UInt64) (behind : Bytes) :
    uint64 (Bytes.ofUInt64 x ++ behind) = some (x, behind) := by
  have h := number_ofNat 8 x.toNat_lt behind
  simp [uint64, Bytes.ofUInt64, h]

theorem uint16s_append (values : Array UInt16) (xs : List UInt16) (behind : Bytes) :
    uint16s values xs.length (xs.flatMap Bytes.ofUInt16 ++ behind)
      = some (values.toList ++ xs, behind) := by
  induction xs generalizing values with
  | nil => simp [uint16s]
  | cons x xs ih => simp [uint16s, List.append_assoc, ih]

end Reader

@[simp] theorem Bytes.length_ofUInt16 (x : UInt16) : (Bytes.ofUInt16 x).length = 2 :=
  Bytes.length_ofNat _ _

@[simp] theorem Bytes.length_ofUInt32 (x : UInt32) : (Bytes.ofUInt32 x).length = 4 :=
  Bytes.length_ofNat _ _

@[simp] theorem Bytes.length_ofUInt64 (x : UInt64) : (Bytes.ofUInt64 x).length = 8 :=
  Bytes.length_ofNat _ _

@[simp] theorem Interval.length_encode (i : Interval) : i.encode.length = 4 := by
  simp [Interval.encode]

@[simp] theorem Interval.read_append (i : Interval) (behind : Bytes) :
    Interval.read (i.encode ++ behind) = some (i, behind) := by
  simp [Interval.read, Interval.encode, List.append_assoc]

@[simp] theorem CompactEvent.read_append (e : CompactEvent) (behind : Bytes) :
    CompactEvent.read (e.encode ++ behind) = some (e, behind) := by
  simp [CompactEvent.read, CompactEvent.encode, List.append_assoc]

@[simp] theorem ExtendedEvent.read_append (e : ExtendedEvent) (behind : Bytes) :
    ExtendedEvent.read (e.encode ++ behind) = some (e, behind) := by
  simp [ExtendedEvent.read, ExtendedEvent.encode, List.append_assoc]

theorem WaveformEvent.read_append (e : WaveformEvent) (h : e.samples.length < UInt16.size)
    (behind : Bytes) : WaveformEvent.read (e.encode ++ behind) = some (e, behind) := by
  have hcount : (UInt16.ofNat e.samples.length).toNat = e.samples.length := by
    rw [UInt16.toNat_ofNat', Nat.mod_eq_of_lt h]
  simp [WaveformEvent.read, WaveformEvent.encode, WaveformEvent.encodeHeader, List.append_assoc,
    hcount, Reader.uint16s_append]

namespace Event

/-- A record is as long as the event's kind and samples make it. -/
@[simp] theorem length_encode (e : Event) : e.encode.length = e.elementSize := by
  cases e with
  | compact e => simp [encode, CompactEvent.encode, elementSize, kind, RecordKind.elementSize,
      RecordKind.compactSize]
  | extended e => simp [encode, ExtendedEvent.encode, elementSize, kind, RecordKind.elementSize,
      RecordKind.extendedSize]
  | waveform e =>
    have hs (xs : List UInt16) : (xs.flatMap Bytes.ofUInt16).length = 2 * xs.length := by
      induction xs with
      | nil => rfl
      | cons x xs ih => simp [ih]; omega
    simp [encode, WaveformEvent.encode, WaveformEvent.encodeHeader, ExtendedEvent.encode,
      elementSize, kind, samples, RecordKind.elementSize, RecordKind.waveformHeaderSize, hs]
    omega

/-- The record of an event with fewer than `2 ^ 16` samples reads back as the event, whatever
stands behind it. -/
theorem read?_encode (e : Event) (h : e.samples.length < UInt16.size) (behind : Bytes) :
    read? e.kind (e.encode ++ behind) = some e := by
  cases e with
  | compact e => simp [read?, read, encode, kind, StateT.run, Functor.map, StateT.map]
  | extended e => simp [read?, read, encode, kind, StateT.run, Functor.map, StateT.map]
  | waveform e =>
    simp [read?, read, encode, kind, StateT.run, Functor.map, StateT.map,
      WaveformEvent.read_append e h]

/-- Records of one size take as many bytes as there are records of it. -/
theorem length_encodeAll {events : List Event} {size : Nat}
    (h : ∀ e ∈ events, e.elementSize = size) :
    (encodeAll events).length = events.length * size := by
  induction events with
  | nil => simp [encodeAll]
  | cons e events ih =>
    rw [List.forall_mem_cons] at h
    have hrest := ih h.2
    simp only [encodeAll] at hrest ⊢
    rw [List.flatMap_cons, List.length_append, hrest, length_encode, h.1, List.length_cons,
      Nat.add_one_mul, Nat.add_comm]

end Event

end PulseDaq
