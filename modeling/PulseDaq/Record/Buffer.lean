import PulseDaq.Record.Codec

/-!
# Record buffers

A buffer of a fixed number of bytes, split into a header and slots for records of one size. It
never grows. Clearing it only forgets its records: their bytes stay until their slots are written
again.

```text
| header | record 0 | record 1 | ... | free slots | bytes that fill no slot |
```

* `Bytes.overwrite`: bytes written over others, from some place on.
* `RecordBuffer.ofSize`: a buffer of a given size; `RecordBuffer.ofElements`: of a given number of
  slots.
* `RecordBuffer.records`: the stored records, the view through which the operations are described.
* `RecordBuffer.pushBytes`, `RecordBuffer.push`: store one more record.
* `RecordBuffer.copyFrom`: take over the contents of another buffer.
-/

namespace PulseDaq

/-- Why a buffer refuses an operation. -/
inductive BufferError where
  /-- Every slot is in use. -/
  | capacityExceeded (capacity : Nat)
  /-- A record is not of the slot size. -/
  | elementSize (expected found : Nat)
  /-- A header is not of the size of this buffer's header. -/
  | headerSize (expected found : Nat)
  /-- The sizes do not make a buffer. -/
  | geometry (capacityBytes elementSize headerBytes : Nat)
  deriving DecidableEq, Repr

/-- The wording of a buffer error. -/
def BufferError.message : BufferError → String
  | .capacityExceeded capacity => s!"out of storage space: all {capacity} slots are in use"
  | .elementSize expected found =>
    s!"element of {found} bytes does not match the {expected} byte slot size"
  | .headerSize expected found =>
    s!"header of {found} bytes does not match the {expected} byte header"
  | .geometry capacityBytes size headerBytes =>
    s!"cannot split {capacityBytes} bytes into a {headerBytes} byte header and {size} byte slots"

namespace Bytes

/-- `data` with `bytes` written from place `i` on, which is not behind its end. What reaches behind
the end makes it longer. -/
def overwrite (data : Array UInt8) (i : Nat) : Bytes → Array UInt8
  | [] => data
  | b :: rest => overwrite (if h : i < data.size then data.set i b else data.push b) (i + 1) rest

/-- Writing touches the places written and no other. -/
theorem toList_overwrite {data : Array UInt8} {i : Nat} (h : i ≤ data.size) (bytes : Bytes) :
    (overwrite data i bytes).toList =
      data.toList.take i ++ bytes ++ data.toList.drop (i + bytes.length) := by
  induction bytes generalizing data i with
  | nil => simp [overwrite]
  | cons b rest ih =>
    unfold overwrite
    split
    next hlt =>
      have hdrop : (data.toList.set i b).drop (i + 1 + rest.length) =
          data.toList.drop (i + (b :: rest).length) := by
        rw [List.drop_set_of_lt (by omega), List.length_cons]
        congr 1
        omega
      rw [ih (by rw [Array.size_set]; omega), Array.toList_set, hdrop, List.take_set,
        List.take_add_one, List.getElem?_eq_getElem (by simpa using hlt), List.set_append]
      simp [Nat.min_eq_left (Nat.le_of_lt hlt)]
    next hge =>
      have hi : i = data.toList.length := by rw [Array.length_toList]; omega
      rw [ih (by rw [Array.size_push]; omega), Array.toList_push,
        List.take_of_length_le (by simp; omega), List.take_of_length_le (by omega),
        List.drop_eq_nil_of_le (by simp; omega), List.drop_eq_nil_of_le (by omega)]
      simp

theorem size_overwrite {data : Array UInt8} {i : Nat} (h : i ≤ data.size) (bytes : Bytes) :
    (overwrite data i bytes).size = max data.size (i + bytes.length) := by
  rw [← Array.length_toList, toList_overwrite h]
  simp
  omega

end Bytes

/-- A buffer of `capacityBytes` bytes for records of `elementSize` bytes behind a header. -/
structure RecordBuffer where
  capacityBytes : Nat
  elementSize : Nat
  headerSize : Nat
  /-- The bytes of the buffer as far as they have ever been written: the header, the slots in use,
  and slots that were in use before. Those behind them are zero. -/
  data : Array UInt8
  /-- How many slots are in use. -/
  count : Nat := 0
  elementSize_pos : 0 < elementSize
  header_le : headerSize ≤ capacityBytes
  used_le : headerSize + count * elementSize ≤ data.size
  size_le : data.size ≤ capacityBytes

namespace RecordBuffer

/-- The number of slots: as many as fit behind the header. -/
def capacity (b : RecordBuffer) : Nat :=
  (b.capacityBytes - b.headerSize) / b.elementSize

/-- Bytes in use, the header included. -/
def dataSize (b : RecordBuffer) : Nat :=
  b.headerSize + b.count * b.elementSize

/-- The bytes in front of the slots. -/
def header (b : RecordBuffer) : Bytes :=
  (b.data.extract 0 b.headerSize).toList

/-- The stored records, back to back. -/
def rawBytes (b : RecordBuffer) : Bytes :=
  (b.data.extract b.headerSize b.dataSize).toList

/-- The record in slot `i`. -/
def record (b : RecordBuffer) (i : Nat) : Bytes :=
  (b.data.extract (b.headerSize + i * b.elementSize)
    (b.headerSize + (i + 1) * b.elementSize)).toList

/-- The stored records in the order in which they were stored. -/
def records (b : RecordBuffer) : List Bytes :=
  (List.range b.count).map b.record

/-- The stored records read as events of `kind`; those that are too short for it are left out. -/
def events (b : RecordBuffer) (kind : RecordKind) : List Event :=
  b.records.filterMap (Event.read? kind)

theorem dataSize_le (b : RecordBuffer) : b.dataSize ≤ b.data.size :=
  b.used_le

@[simp] theorem length_header (b : RecordBuffer) : b.header.length = b.headerSize := by
  have := b.used_le
  simp [header]
  omega

@[simp] theorem length_rawBytes (b : RecordBuffer) :
    b.rawBytes.length = b.count * b.elementSize := by
  have := b.used_le
  simp [rawBytes, dataSize]
  omega

/-- The slots in use are slots of the buffer. -/
theorem count_le_capacity (b : RecordBuffer) : b.count ≤ b.capacity := by
  have hused := b.used_le
  have hsize := b.size_le
  rw [capacity, Nat.le_div_iff_mul_le b.elementSize_pos]
  omega

/-- A buffer of `capacityBytes` bytes: a header of zeros, and as many slots as fit behind it. -/
def ofSize (capacityBytes elementSize headerBytes : Nat) : Except BufferError RecordBuffer :=
  if h : elementSize = 0 ∨ capacityBytes < headerBytes then
    .error (.geometry capacityBytes elementSize headerBytes)
  else
    .ok {
      capacityBytes := capacityBytes
      elementSize := elementSize
      headerSize := headerBytes
      data := Array.replicate headerBytes 0
      elementSize_pos := by omega
      header_le := by omega
      used_le := by simp
      size_le := by simp; omega }

/-- A buffer of `elements` slots, without a header. Its bytes are counted in 64 bits: the product
wraps, and a number of slots that needs more bytes than that makes a buffer of fewer slots. -/
def ofElements (elements elementSize : Nat) : Except BufferError RecordBuffer :=
  ofSize (elements * elementSize % UInt64.size) elementSize 0

/-- An empty buffer of the geometry of `b`, its header all zeros. -/
def emptyLike (b : RecordBuffer) : RecordBuffer where
  capacityBytes := b.capacityBytes
  elementSize := b.elementSize
  headerSize := b.headerSize
  data := Array.replicate b.headerSize 0
  elementSize_pos := b.elementSize_pos
  header_le := b.header_le
  used_le := by simp
  size_le := by simpa using b.header_le

/-- Why a record of `size` bytes cannot be stored. -/
def refusal? (b : RecordBuffer) (size : Nat) : Option BufferError :=
  if size ≠ b.elementSize then some (.elementSize b.elementSize size)
  else if b.count = b.capacity then some (.capacityExceeded b.capacity)
  else none

/-- A buffer refuses nothing that has the size of its free slots. -/
theorem refusal?_eq_none_iff {b : RecordBuffer} {size : Nat} :
    b.refusal? size = none ↔ size = b.elementSize ∧ b.count ≠ b.capacity := by
  unfold refusal?
  split
  · simp_all
  · split <;> simp_all

/-- The next free slot of a buffer that is not full lies inside the buffer. -/
theorem slot_le {b : RecordBuffer} (h : b.count ≠ b.capacity) :
    b.dataSize + b.elementSize ≤ b.capacityBytes := by
  have hfree : b.count + 1 ≤ b.capacity := Nat.lt_of_le_of_ne b.count_le_capacity h
  rw [capacity, Nat.le_div_iff_mul_le b.elementSize_pos, Nat.succ_mul] at hfree
  have := b.header_le
  unfold dataSize
  omega

/-- Store an encoded record, which is not refused, in the next free slot. -/
def store (b : RecordBuffer) (bytes : Bytes) (h : b.refusal? bytes.length = none) :
    RecordBuffer :=
  { b with
    data := Bytes.overwrite b.data b.dataSize bytes
    count := b.count + 1
    used_le := by
      have hsize := (refusal?_eq_none_iff.1 h).1
      rw [Bytes.size_overwrite b.dataSize_le, hsize, Nat.succ_mul, dataSize]
      omega
    size_le := by
      obtain ⟨hsize, hfree⟩ := refusal?_eq_none_iff.1 h
      have hslot := slot_le hfree
      have := b.size_le
      rw [Bytes.size_overwrite b.dataSize_le, hsize]
      omega }

/-- Store an encoded record in the next free slot. -/
def pushBytes (b : RecordBuffer) (bytes : Bytes) : Except BufferError RecordBuffer :=
  match h : b.refusal? bytes.length with
  | some e => .error e
  | none => .ok (b.store bytes h)

/-- Store the record of an event in the next free slot. -/
def push (b : RecordBuffer) (e : Event) : Except BufferError RecordBuffer :=
  b.pushBytes e.encode

/-- Forget all records; the header stays. -/
def clear (b : RecordBuffer) : RecordBuffer :=
  { b with
    count := 0
    used_le := by
      have := b.used_le
      omega }

/-- Overwrite the first bytes of the header; bytes past its end are ignored. -/
def writeHeader (b : RecordBuffer) (bytes : Bytes) : RecordBuffer :=
  { b with
    data := Bytes.overwrite b.data 0 (bytes.take b.headerSize)
    used_le := by
      have := b.used_le
      rw [Bytes.size_overwrite (Nat.zero_le _)]
      omega
    size_le := by
      have hsize := b.size_le
      have hheader := b.header_le
      rw [Bytes.size_overwrite (Nat.zero_le _), List.length_take]
      omega }

/-- Replace header and records by those of `other`, whose slots and header have to be of the same
size. -/
def copyFrom (b other : RecordBuffer) : Except BufferError RecordBuffer :=
  if hsize : other.elementSize ≠ b.elementSize then
    .error (.elementSize b.elementSize other.elementSize)
  else if hheader : other.headerSize ≠ b.headerSize then
    .error (.headerSize b.headerSize other.headerSize)
  else if hfull : b.capacity < other.count then
    .error (.capacityExceeded b.capacity)
  else
    .ok { b with
      data := other.data.extract 0 other.dataSize ++ b.data.extract other.dataSize b.data.size
      count := other.count
      used_le := by
        have hused := other.used_le
        simp only [ne_eq, Decidable.not_not] at hsize hheader
        simp only [← hsize, ← hheader, Array.size_append, Array.size_extract, dataSize]
        omega
      size_le := by
        simp only [ne_eq, Decidable.not_not] at hsize hheader
        have hused := other.used_le
        have hown := b.size_le
        have hle := b.header_le
        have hroom := Nat.le_of_not_lt hfull
        rw [capacity, Nat.le_div_iff_mul_le b.elementSize_pos, ← hsize, ← hheader] at hroom
        simp only [Array.size_append, Array.size_extract, dataSize]
        omega }

end RecordBuffer

end PulseDaq
