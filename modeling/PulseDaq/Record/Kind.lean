/-!
# Record kinds

Events are stored as packed little-endian records of three kinds, each of which extends the one
before it in what it holds:

```text
compact   (8 bytes):       time u32 | channel u16 | charge u16
extended  (14 bytes):      time u64 | channel u16 | charge u16 | baseline u16
waveform  (30 + 2n bytes): extended | sample count u16 | trigger u16 | gate u16 u16
                           | hold-off u16 u16 | over-threshold u16 u16 | samples u16 * n
```

* `RecordKind.elementSize`: the size of a record, from its sample count.
* `RecordKind.layout`: where each value stands in a record.
-/

namespace PulseDaq

/-- What a record holds of an event. -/
inductive RecordKind where
  | compact
  | extended
  | waveform
  deriving DecidableEq, Repr, Inhabited

/-- The width of a stored number. -/
inductive Scalar where
  | u16
  | u32
  | u64
  deriving DecidableEq, Repr

/-- Bytes of a stored number. -/
def Scalar.width : Scalar → Nat
  | .u16 => 2
  | .u32 => 4
  | .u64 => 8

/-- One value, or `count` values in a row, of a record layout. -/
structure Field where
  name : String
  offset : Nat
  scalar : Scalar
  count : Nat
  deriving DecidableEq, Repr

namespace RecordKind

/-- The kind for what a board's events carry. -/
def ofFlags (extras waveform : Bool) : RecordKind :=
  if waveform then .waveform else if extras then .extended else .compact

/-- The number that stands for the kind in stored metadata. -/
def code : RecordKind → Nat
  | compact => 1
  | extended => 2
  | waveform => 3

/-- The kind that a number stands for. -/
def ofCode? : Nat → Option RecordKind
  | 1 => some compact
  | 2 => some extended
  | 3 => some waveform
  | _ => none

/-- The kind's name. -/
def name : RecordKind → String
  | compact => "Compact"
  | extended => "Extended"
  | waveform => "Waveform"

/-- Bytes of a compact record. -/
def compactSize : Nat := 8

/-- Bytes of an extended record. -/
def extendedSize : Nat := 14

/-- Bytes of a waveform record in front of its samples. -/
def waveformHeaderSize : Nat := 30

/-- Bytes of a record with `samples` samples, which only waveforms have. -/
def elementSize (kind : RecordKind) (samples : Nat) : Nat :=
  match kind with
  | compact => compactSize
  | extended => extendedSize
  | waveform => waveformHeaderSize + 2 * samples

/-- Samples for which a record of `elementSize` bytes has room. -/
def samples (kind : RecordKind) (elementSize : Nat) : Nat :=
  match kind with
  | waveform => (elementSize - waveformHeaderSize) / 2
  | _ => 0

/-- The values of a record in the order in which they stand in it. -/
def layout (kind : RecordKind) (samples : Nat) : List Field :=
  match kind with
  | compact => [⟨"time", 0, .u32, 1⟩, ⟨"channel", 4, .u16, 1⟩, ⟨"charge", 6, .u16, 1⟩]
  | extended => extendedFields
  | waveform => extendedFields ++ [⟨"num_samples", 14, .u16, 1⟩, ⟨"trigger", 16, .u16, 1⟩,
      ⟨"gate", 18, .u16, 2⟩, ⟨"holdoff", 22, .u16, 2⟩, ⟨"overthreshold", 26, .u16, 2⟩,
      ⟨"samples", 30, .u16, samples⟩]
where
  /-- The values that extended and waveform records share. -/
  extendedFields : List Field :=
    [⟨"time", 0, .u64, 1⟩, ⟨"channel", 8, .u16, 1⟩, ⟨"charge", 10, .u16, 1⟩,
      ⟨"baseline", 12, .u16, 1⟩]

/-- Every kind is found by its own code. -/
@[simp] theorem ofCode?_code (kind : RecordKind) : ofCode? kind.code = some kind := by
  cases kind <;> rfl

/-- A record of the size for `n` samples has room for just these. -/
theorem samples_elementSize (kind : RecordKind) (n : Nat) :
    kind.samples (kind.elementSize n) = if kind = waveform then n else 0 := by
  cases kind <;> simp [samples, elementSize]

theorem elementSize_pos (kind : RecordKind) (n : Nat) : 0 < kind.elementSize n := by
  cases kind with
  | compact => exact Nat.succ_pos _
  | extended => exact Nat.succ_pos _
  | waveform => exact Nat.add_pos_left (Nat.succ_pos _) _

/-- The size of a waveform tells how many samples it has. -/
theorem elementSize_waveform_inj {m n : Nat}
    (h : waveform.elementSize m = waveform.elementSize n) : m = n := by
  have hsize : waveformHeaderSize + 2 * m = waveformHeaderSize + 2 * n := h
  omega

end RecordKind

end PulseDaq
