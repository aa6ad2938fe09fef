import Mathlib.Data.List.Forall2
import PulseDaq.Record.Buffer
import PulseDaq.Record.Unit

/-!
# Record buffers as lists of records

All that can be seen of a record buffer is a header and a bounded list of records; how the bytes of
the two share one allocation, and what free slots have been left with, cannot be seen.

* `Contents`: a header and a list of records, with operations stated on them alone.
* `RecordBuffer.contents`: what a buffer holds. There is one commuting square for each operation
  (`contents_pushBytes`, `contents_clear`, `contents_copyFrom`, ...).
* `RecordBuffer.capacity_ofElements`: when a buffer made for a number of records has room for them.
* `RecordBuffer.Holds`: every way to look at a buffer shows its contents.
* `BufferOps.run_refines`: buffers and contents through the same operations, any number of them at
  once, answer alike and stay alike.
-/

namespace PulseDaq

/-! ## Slices of bytes -/

namespace Bytes

theorem toList_extract (data : Array UInt8) (i j : Nat) :
    (data.extract i j).toList = (data.toList.take j).drop i := by
  rw [Array.toList_extract, List.extract_eq_take_drop, List.drop_take]

/-- Bytes that stand in front of the written ones stay. -/
theorem extract_overwrite_before {data : Array UInt8} {i j k : Nat} (hk : k ≤ i)
    (hi : i ≤ data.size) (bytes : Bytes) :
    ((overwrite data i bytes).extract j k).toList = (data.extract j k).toList := by
  rw [toList_extract, toList_extract, toList_overwrite hi, List.append_assoc,
    List.take_append_of_le_length (by simp; omega), List.take_take, Nat.min_eq_left hk]

/-- Bytes that stand behind the written ones stay. -/
theorem extract_overwrite_behind {data : Array UInt8} {i j k : Nat} (bytes : Bytes)
    (hi : i ≤ data.size) (hj : i + bytes.length ≤ j) :
    ((overwrite data i bytes).extract j k).toList = (data.extract j k).toList := by
  have hlen : (data.toList.take i ++ bytes).length = i + bytes.length := by
    simp
    omega
  obtain ⟨n, rfl⟩ := Nat.exists_eq_add_of_le hj
  rw [Array.toList_extract, Array.toList_extract, List.extract_eq_take_drop,
    List.extract_eq_take_drop, toList_overwrite hi, ← hlen, List.drop_length_add_append,
    List.drop_drop]

/-- The written bytes stand where they were written. -/
theorem extract_overwrite {data : Array UInt8} {i : Nat} (hi : i ≤ data.size) (bytes : Bytes) :
    ((overwrite data i bytes).extract i (i + bytes.length)).toList = bytes := by
  have hlen : (data.toList.take i).length = i := by simp; omega
  rw [Array.toList_extract, List.extract_eq_take_drop, toList_overwrite hi, List.append_assoc,
    List.drop_left' hlen, Nat.add_sub_cancel_left, List.take_left]

/-- Bytes that were taken from the front of others stand where they stood there. -/
theorem extract_taken {data : Array UInt8} {j k n : Nat} (hk : k ≤ n) (hn : n ≤ data.size)
    (behind : Array UInt8) :
    ((data.extract 0 n ++ behind).extract j k).toList = (data.extract j k).toList := by
  rw [toList_extract, toList_extract, Array.toList_append,
    List.take_append_of_le_length (by simp; omega), toList_extract, List.drop_zero, List.take_take,
    Nat.min_eq_left hk]

/-- Pieces of one size side by side are what they were cut from. -/
theorem flatten_pieces {data : Array UInt8} (start size : Nat) {count : Nat}
    (h : start + count * size ≤ data.size) :
    ((List.range count).map fun i =>
        (data.extract (start + i * size) (start + (i + 1) * size)).toList).flatten =
      (data.extract start (start + count * size)).toList := by
  induction count with
  | zero => simp
  | succ count ih =>
    rw [Nat.succ_mul] at h
    rw [List.range_succ, List.map_append, List.flatten_append, ih (by omega)]
    simp only [List.map_cons, List.map_nil, List.flatten_cons, List.flatten_nil, List.append_nil]
    rw [← Array.toList_append, Array.extract_append_extract, Nat.min_eq_left (by omega),
      Nat.max_eq_right (Nat.add_le_add_left (Nat.mul_le_mul_right _ (Nat.le_succ _)) _)]

/-- Byte strings of one size, put side by side, are the pieces of that size. -/
theorem piece_flatten {size : Nat} {parts : List Bytes} (h : ∀ p ∈ parts, p.length = size) {i : Nat}
    (hi : i < parts.length) : piece parts.flatten.toArray size i = parts[i] := by
  induction parts generalizing i with
  | nil => cases hi
  | cons p parts ih =>
    have hp := h p List.mem_cons_self
    subst hp
    cases i with
    | zero => simp [piece]
    | succ i =>
      rw [List.getElem_cons_succ, ← ih (fun q hq => h q (.tail _ hq)) (Nat.lt_of_succ_lt_succ hi)]
      simp only [piece, toList_extract, List.flatten_cons]
      rw [Nat.succ_mul (i + 1), Nat.succ_mul i, Nat.add_comm _ p.length, Nat.add_comm _ p.length,
        List.take_length_add_append, List.drop_length_add_append]

end Bytes

/-! ## Contents -/

/-- What a buffer holds: a header, and records of one size, not more than there is room for. -/
structure Contents where
  capacityBytes : Nat
  elementSize : Nat
  header : Bytes
  records : List Bytes := []
  deriving DecidableEq, Repr

namespace Contents

/-- The number of records for which there is room behind the header. -/
def capacity (c : Contents) : Nat :=
  (c.capacityBytes - c.header.length) / c.elementSize

def ofSize (capacityBytes elementSize headerBytes : Nat) : Except BufferError Contents :=
  if 0 < elementSize ∧ headerBytes ≤ capacityBytes then
    .ok { capacityBytes, elementSize, header := List.replicate headerBytes 0 }
  else
    .error (.geometry capacityBytes elementSize headerBytes)

/-- Room for `elements` records, as far as their bytes can be counted in 64 bits. -/
def ofElements (elements elementSize : Nat) : Except BufferError Contents :=
  ofSize (elements * elementSize % UInt64.size) elementSize 0

/-- The same geometry with a header of zeros and no record. -/
def emptyLike (c : Contents) : Contents :=
  { c with header := List.replicate c.header.length 0, records := [] }

/-- A record that claims a size comes behind the others, if the size is right and there is room. -/
def append (c : Contents) (size : Nat) (record : Bytes) : Except BufferError Contents :=
  if size ≠ c.elementSize then .error (.elementSize c.elementSize size)
  else if c.records.length = c.capacity then .error (.capacityExceeded c.capacity)
  else .ok { c with records := c.records ++ [record] }

def pushBytes (c : Contents) (bytes : Bytes) : Except BufferError Contents :=
  c.append bytes.length bytes

def push (c : Contents) (e : Event) : Except BufferError Contents :=
  c.append e.elementSize e.encode

def clear (c : Contents) : Contents :=
  { c with records := [] }

def writeHeader (c : Contents) (bytes : Bytes) : Contents :=
  { c with header := bytes.take c.header.length ++ c.header.drop bytes.length }

def copyFrom (c other : Contents) : Except BufferError Contents :=
  if other.elementSize ≠ c.elementSize then
    .error (.elementSize c.elementSize other.elementSize)
  else if other.header.length ≠ c.header.length then
    .error (.headerSize c.header.length other.header.length)
  else if c.capacity < other.records.length then
    .error (.capacityExceeded c.capacity)
  else
    .ok { c with header := other.header, records := other.records }

end Contents

namespace RecordBuffer

/-- What a buffer holds. -/
def contents (b : RecordBuffer) : Contents where
  capacityBytes := b.capacityBytes
  elementSize := b.elementSize
  header := b.header
  records := b.records

theorem capacity_contents (b : RecordBuffer) : b.contents.capacity = b.capacity := by
  simp [Contents.capacity, contents, capacity]

theorem length_records (b : RecordBuffer) : b.records.length = b.count := by
  simp [records]

/-- Buffers whose contents differ in their records alone have the same slots. -/
theorem slots_of_contents {b b' : RecordBuffer} {records : List Bytes}
    (h : b'.contents = { b.contents with records := records }) :
    b'.elementSize = b.elementSize ∧ b'.capacity = b.capacity ∧ b'.count = records.length := by
  refine ⟨congrArg Contents.elementSize h, ?_, ?_⟩
  · rw [← b'.capacity_contents, ← b.capacity_contents, h]
    rfl
  · rw [← b'.length_records]
    exact congrArg (fun c => c.records.length) h

/-- A slot in use is a slice of the bytes in use. -/
theorem slot_le_dataSize {b : RecordBuffer} {i : Nat} (h : i < b.count) :
    b.headerSize + (i + 1) * b.elementSize ≤ b.dataSize :=
  Nat.add_le_add_left (Nat.mul_le_mul_right _ h) _

theorem length_record {b : RecordBuffer} {i : Nat} (h : i < b.count) :
    (b.record i).length = b.elementSize := by
  have hslot := slot_le_dataSize h
  have hsize := b.dataSize_le
  rw [Nat.succ_mul] at hslot
  rw [record, Nat.succ_mul, Array.length_toList, Array.size_extract]
  omega

theorem flatten_records (b : RecordBuffer) : b.records.flatten = b.rawBytes :=
  Bytes.flatten_pieces b.headerSize b.elementSize b.dataSize_le

/-- What stands in the slots of `b`, if it stands in another buffer in the same places. -/
theorem map_record_congr {b c : RecordBuffer} (hheader : c.headerSize = b.headerSize)
    (hsize : c.elementSize = b.elementSize)
    (hdata : ∀ j k, b.headerSize ≤ j → k ≤ b.dataSize →
      (c.data.extract j k).toList = (b.data.extract j k).toList) :
    (List.range b.count).map c.record = b.records := by
  apply List.map_congr_left
  intro i hi
  rw [record, record, hheader, hsize]
  exact hdata _ _ (Nat.le_add_right _ _) (slot_le_dataSize (List.mem_range.1 hi))

/-! ## One square for each operation -/

theorem contents_ofSize (capacityBytes elementSize headerBytes : Nat) :
    (ofSize capacityBytes elementSize headerBytes).map contents =
      Contents.ofSize capacityBytes elementSize headerBytes := by
  unfold ofSize Contents.ofSize
  split
  next h =>
    rw [if_neg (by omega)]
    rfl
  next h =>
    rw [if_pos (by omega)]
    simp [Except.map, contents, header, records]

/-- A buffer has the geometry that it is made with. -/
theorem ofSize_eq_ok {capacityBytes elementSize headerBytes : Nat} {b : RecordBuffer}
    (h : ofSize capacityBytes elementSize headerBytes = .ok b) :
    b.elementSize = elementSize ∧ b.headerSize = headerBytes ∧
      b.capacity = (capacityBytes - headerBytes) / elementSize := by
  unfold ofSize at h
  split at h <;> cases h
  exact ⟨rfl, rfl, rfl⟩

/-- Slots of some size can always be made. -/
theorem ofSize_of_pos (capacityBytes : Nat) {elementSize : Nat} (h : 0 < elementSize) :
    ∃ b, ofSize capacityBytes elementSize 0 = .ok b := by
  unfold ofSize
  rw [dif_neg (by omega)]
  exact ⟨_, rfl⟩

/-- As long as their bytes can be counted, a buffer is made with all the slots asked for. -/
theorem ofElements_eq_ofSize {elements elementSize : Nat}
    (h : elements * elementSize < UInt64.size) :
    ofElements elements elementSize = ofSize (elements * elementSize) elementSize 0 := by
  rw [ofElements, Nat.mod_eq_of_lt h]

/-- A buffer made for a number of records has room for just these if their bytes can be counted,
and for fewer otherwise. -/
theorem capacity_ofElements {elements elementSize : Nat} {b : RecordBuffer}
    (h : ofElements elements elementSize = .ok b) :
    b.capacity ≤ elements ∧ (b.capacity = elements ↔ elements * elementSize < UInt64.size) := by
  obtain ⟨hsize, -, hcapacity⟩ := ofSize_eq_ok h
  have hpos : 0 < elementSize := hsize ▸ b.elementSize_pos
  rw [Nat.sub_zero] at hcapacity
  have hslots : b.capacity * elementSize ≤ elements * elementSize % UInt64.size :=
    hcapacity ▸ Nat.div_mul_le_self _ _
  refine ⟨Nat.le_of_mul_le_mul_right (Nat.le_trans hslots (Nat.mod_le _ _)) hpos, fun hall => ?_,
    fun hlt => ?_⟩
  · rw [hall] at hslots
    exact Nat.lt_of_le_of_lt hslots (Nat.mod_lt _ (by decide))
  · rw [hcapacity, Nat.mod_eq_of_lt hlt, Nat.mul_div_cancel _ hpos]

/-- The bytes of `2 ^ 61` slots of eight bytes are one more than can be counted. -/
example : (ofElements 2305843009213693952 8).map capacity = .ok 0 := by
  rfl

theorem contents_emptyLike (b : RecordBuffer) : b.emptyLike.contents = b.contents.emptyLike := by
  have hlen := b.length_header
  simp only [contents, Contents.emptyLike, hlen]
  simp [header, emptyLike, records]

theorem contents_clear (b : RecordBuffer) : b.clear.contents = b.contents.clear := by
  simp [contents, Contents.clear, clear, header, records]

/-- The new record is what stands in its slot, whatever stood there before. -/
theorem contents_store {b : RecordBuffer} {bytes : Bytes} (h : b.refusal? bytes.length = none) :
    (b.store bytes h).contents = { b.contents with records := b.records ++ [bytes] } := by
  have hsize := (refusal?_eq_none_iff.1 h).1
  -- The slot lies behind all that is in use.
  have hheader : (b.store bytes h).header = b.header :=
    Bytes.extract_overwrite_before (Nat.le_add_right _ _) b.dataSize_le bytes
  have hbefore : (List.range b.count).map (b.store bytes h).record = b.records :=
    map_record_congr rfl rfl fun _ _ _ hk => Bytes.extract_overwrite_before hk b.dataSize_le bytes
  have hnew : (b.store bytes h).record b.count = bytes := by
    have hextract := Bytes.extract_overwrite b.dataSize_le bytes
    rw [hsize, dataSize, Nat.add_assoc, ← Nat.succ_mul] at hextract
    exact hextract
  have hrecords : (b.store bytes h).records = b.records ++ [bytes] := by
    have hcount : (b.store bytes h).count = b.count + 1 := rfl
    rw [records, hcount, List.range_succ, List.map_append, hbefore, List.map_singleton, hnew]
  rw [contents, hheader, hrecords]
  rfl

theorem contents_pushBytes (b : RecordBuffer) (bytes : Bytes) :
    (b.pushBytes bytes).map contents = b.contents.pushBytes bytes := by
  have helement : b.contents.elementSize = b.elementSize := rfl
  have hcount : b.contents.records.length = b.count := b.length_records
  unfold pushBytes Contents.pushBytes Contents.append
  rw [helement, hcount, capacity_contents]
  split
  next e he =>
    unfold refusal? at he
    split at he
    next hsize =>
      cases he
      rw [if_pos hsize]
      rfl
    next hsize =>
      split at he
      next hfull =>
        cases he
        rw [if_neg hsize, if_pos hfull]
        rfl
      · cases he
  next he =>
    obtain ⟨hsize, hfree⟩ := refusal?_eq_none_iff.1 he
    rw [if_neg (not_not_intro hsize), if_neg hfree]
    exact congrArg Except.ok (contents_store he)

theorem contents_push (b : RecordBuffer) (e : Event) :
    (b.push e).map contents = b.contents.push e := by
  rw [push, contents_pushBytes, Contents.pushBytes, Event.length_encode]
  rfl

theorem contents_writeHeader (b : RecordBuffer) (bytes : Bytes) :
    (b.writeHeader bytes).contents = b.contents.writeHeader bytes := by
  have hwritten : (bytes.take b.headerSize).length ≤ b.headerSize := by
    rw [List.length_take]
    omega
  have hheader : (b.writeHeader bytes).header =
      bytes.take b.headerSize ++ b.header.drop bytes.length := by
    rw [header, header, writeHeader, Bytes.toList_extract, Bytes.toList_extract,
      Bytes.toList_overwrite (Nat.zero_le _), List.take_zero, List.nil_append, List.drop_zero,
      List.drop_zero, List.take_append, List.take_of_length_le hwritten, List.drop_take]
    congr 1
    rw [List.length_take]
    rcases Nat.le_total bytes.length b.headerSize with hle | hle
    · rw [Nat.min_eq_right hle, Nat.zero_add]
    · rw [Nat.min_eq_left hle, Nat.sub_self, Nat.sub_eq_zero_of_le hle, List.take_zero,
        List.take_zero]
  have hrecords : (b.writeHeader bytes).records = b.records :=
    map_record_congr (b := b) (c := b.writeHeader bytes) rfl rfl fun _ _ hj _ =>
      Bytes.extract_overwrite_behind _ (Nat.zero_le _) (by omega)
  rw [contents, hheader, hrecords, Contents.writeHeader, contents, length_header]
  rfl

/-- Of the other buffer as much is taken over as is in use. -/
theorem contents_copyFrom (b other : RecordBuffer) :
    (b.copyFrom other).map contents = b.contents.copyFrom other.contents := by
  have hcount : other.contents.records.length = other.count := other.length_records
  have hown : b.contents.header.length = b.headerSize := b.length_header
  have hheader : other.contents.header.length = other.headerSize := other.length_header
  have helement : b.contents.elementSize = b.elementSize := rfl
  have helement' : other.contents.elementSize = other.elementSize := rfl
  unfold copyFrom Contents.copyFrom
  rw [hcount, hown, hheader, capacity_contents, helement, helement']
  split
  · rfl
  next hsize =>
    split
    · rfl
    next hhead =>
      split
      · rfl
      next hfull =>
        have hhead' := Decidable.not_not.1 hhead
        have hused := other.dataSize_le
        simp only [Except.map]
        congr 1
        simp only [contents]
        congr 1
        · rw [header, header, hhead']
          exact Bytes.extract_taken (hhead' ▸ Nat.le_add_right _ _) hused _
        · exact map_record_congr (b := other) hhead'.symm (Decidable.not_not.1 hsize).symm
            fun _ _ _ hk => Bytes.extract_taken hk hused _

/-- However the buffer is looked at, it shows these contents. -/
structure Holds (b : RecordBuffer) (c : Contents) : Prop where
  capacityBytes : b.capacityBytes = c.capacityBytes
  elementSize : b.elementSize = c.elementSize
  headerSize : b.headerSize = c.header.length
  header : b.header = c.header
  records : b.records = c.records
  count : b.count = c.records.length
  rawBytes : b.rawBytes = c.records.flatten
  events : ∀ kind, b.events kind = c.records.filterMap (Event.read? kind)
  dataSize : b.dataSize = c.header.length + c.records.length * c.elementSize
  capacity : b.capacity = c.capacity
  bounded : c.records.length ≤ c.capacity
  sized : ∀ r ∈ c.records, r.length = c.elementSize
  elementSize_pos : 0 < c.elementSize
  header_le : c.header.length ≤ c.capacityBytes

theorem holds_contents (b : RecordBuffer) : b.Holds b.contents where
  capacityBytes := rfl
  elementSize := rfl
  headerSize := b.length_header.symm
  header := rfl
  records := rfl
  count := b.length_records.symm
  rawBytes := b.flatten_records.symm
  events _ := rfl
  dataSize := by rw [dataSize, contents, length_header, length_records]
  capacity := b.capacity_contents.symm
  bounded := by
    rw [capacity_contents]
    exact b.length_records ▸ b.count_le_capacity
  sized r hr := by
    obtain ⟨i, hi, rfl⟩ := List.mem_map.1 hr
    exact length_record (List.mem_range.1 hi)
  elementSize_pos := b.elementSize_pos
  header_le := b.length_header.symm ▸ b.header_le

end RecordBuffer

/-! ## Any number of buffers -/

/-- An operation on some buffers, which go by the order in which they were made. -/
inductive BufferCall where
  | ofSize (capacityBytes elementSize headerBytes : Nat)
  | ofElements (elements elementSize : Nat)
  | emptyLike (i : Nat)
  | push (i : Nat) (e : Event)
  | pushBytes (i : Nat) (bytes : Bytes)
  | clear (i : Nat)
  | writeHeader (i : Nat) (bytes : Bytes)
  | copyFrom (i j : Nat)
  deriving DecidableEq, Repr

/-- What can be done with buffers, and with contents alike. -/
structure BufferOps (β : Type) where
  ofSize : Nat → Nat → Nat → Except BufferError β
  ofElements : Nat → Nat → Except BufferError β
  emptyLike : β → β
  push : β → Event → Except BufferError β
  pushBytes : β → Bytes → Except BufferError β
  clear : β → β
  writeHeader : β → Bytes → β
  copyFrom : β → β → Except BufferError β

def RecordBuffer.ops : BufferOps RecordBuffer :=
  { ofSize, ofElements, emptyLike, push, pushBytes, clear, writeHeader, copyFrom }

def Contents.ops : BufferOps Contents :=
  { ofSize, ofElements, emptyLike, push, pushBytes, clear, writeHeader, copyFrom }

namespace BufferOps

variable {β : Type}

/-- The buffer that a call makes or changes, as it is behind the call; `none` if the call is of a
buffer that there is not. -/
def made (ops : BufferOps β) (buffers : List β) : BufferCall → Option (Except BufferError β)
  | .ofSize capacityBytes elementSize headerBytes =>
    some (ops.ofSize capacityBytes elementSize headerBytes)
  | .ofElements elements elementSize => some (ops.ofElements elements elementSize)
  | .emptyLike i => buffers[i]?.map fun b => .ok (ops.emptyLike b)
  | .push i e => buffers[i]?.map fun b => ops.push b e
  | .pushBytes i bytes => buffers[i]?.map fun b => ops.pushBytes b bytes
  | .clear i => buffers[i]?.map fun b => .ok (ops.clear b)
  | .writeHeader i bytes => buffers[i]?.map fun b => .ok (ops.writeHeader b bytes)
  | .copyFrom i j => buffers[i]?.bind fun b => buffers[j]?.map fun other => ops.copyFrom b other

/-- A changed buffer stays where it was; a new one comes behind the others. -/
def keep (buffers : List β) (b : β) : BufferCall → List β
  | .push i _ | .pushBytes i _ | .clear i | .writeHeader i _ | .copyFrom i _ => buffers.set i b
  | .ofSize .. | .ofElements .. | .emptyLike _ => buffers ++ [b]

/-- The answer of a call, if there is one, and the buffers behind it. A refusal changes none. -/
def step (ops : BufferOps β) (buffers : List β) (call : BufferCall) :
    Option (Except BufferError Unit) × List β :=
  match ops.made buffers call with
  | some (.ok b) => (some (.ok ()), keep buffers b call)
  | some (.error e) => (some (.error e), buffers)
  | none => (none, buffers)

/-- The answers of some calls in a row, and the buffers behind them. -/
def run (ops : BufferOps β) (buffers : List β) :
    List BufferCall → List (Option (Except BufferError Unit)) × List β
  | [] => ([], buffers)
  | call :: calls =>
    let behind := ops.step buffers call
    let rest := ops.run behind.2 calls
    (behind.1 :: rest.1, rest.2)

theorem keep_contents (buffers : List RecordBuffer) (b : RecordBuffer) (call : BufferCall) :
    (keep buffers b call).map RecordBuffer.contents =
      keep (buffers.map RecordBuffer.contents) b.contents call := by
  cases call <;> simp [keep, List.map_set]

/-- What is done to one of the buffers is done to one of the contents. -/
theorem map_contents {op : RecordBuffer → Except BufferError RecordBuffer}
    {op' : Contents → Except BufferError Contents}
    (h : ∀ b, (op b).map RecordBuffer.contents = op' b.contents) {buffers : List RecordBuffer}
    {i : Nat} :
    (buffers[i]?.map op).map (Except.map RecordBuffer.contents) =
      (buffers.map RecordBuffer.contents)[i]?.map op' := by
  rw [List.getElem?_map, Option.map_map, Option.map_map]
  exact congrArg (Option.map · buffers[i]?) (funext h)

/-- The contents that a call makes are those of the buffer that it makes. -/
theorem made_contents (buffers : List RecordBuffer) (call : BufferCall) :
    (RecordBuffer.ops.made buffers call).map (Except.map RecordBuffer.contents) =
      Contents.ops.made (buffers.map RecordBuffer.contents) call := by
  cases call with
  | ofSize capacityBytes elementSize headerBytes =>
    exact congrArg some (RecordBuffer.contents_ofSize _ _ _)
  | ofElements elements elementSize => exact congrArg some (RecordBuffer.contents_ofSize _ _ _)
  | copyFrom i j =>
    simp only [made, List.getElem?_map]
    cases buffers[i]? with
    | none => rfl
    | some b =>
      cases buffers[j]? with
      | none => rfl
      | some other => exact congrArg some (b.contents_copyFrom other)
  | emptyLike i =>
    refine map_contents fun b => ?_
    exact congrArg Except.ok b.contents_emptyLike
  | push i e => exact map_contents fun b => b.contents_push e
  | pushBytes i bytes => exact map_contents fun b => b.contents_pushBytes bytes
  | clear i =>
    refine map_contents fun b => ?_
    exact congrArg Except.ok b.contents_clear
  | writeHeader i bytes =>
    refine map_contents fun b => ?_
    exact congrArg Except.ok (b.contents_writeHeader bytes)

/-- A call answers what the contents of the buffers say, and changes them as it changes contents. -/
theorem step_contents (buffers : List RecordBuffer) (call : BufferCall) :
    Contents.ops.step (buffers.map RecordBuffer.contents) call =
      ((RecordBuffer.ops.step buffers call).1,
        (RecordBuffer.ops.step buffers call).2.map RecordBuffer.contents) := by
  unfold step
  rw [← made_contents]
  match RecordBuffer.ops.made buffers call with
  | some (.ok b) => exact congrArg (Prod.mk _) (keep_contents buffers b call).symm
  | some (.error e) => rfl
  | none => rfl

theorem run_contents (buffers : List RecordBuffer) (calls : List BufferCall) :
    Contents.ops.run (buffers.map RecordBuffer.contents) calls =
      ((RecordBuffer.ops.run buffers calls).1,
        (RecordBuffer.ops.run buffers calls).2.map RecordBuffer.contents) := by
  induction calls generalizing buffers with
  | nil => rfl
  | cons call calls ih => simp only [run, step_contents, ih]

/-- Buffers and contents through the same calls: every call has the same answer for both, and in the
end, as at any time before, every buffer shows its contents and nothing else. -/
theorem run_refines (calls : List BufferCall) :
    (RecordBuffer.ops.run [] calls).1 = (Contents.ops.run [] calls).1 ∧
      List.Forall₂ RecordBuffer.Holds (RecordBuffer.ops.run [] calls).2
        (Contents.ops.run [] calls).2 := by
  have hrun := run_contents [] calls
  rw [List.map_nil] at hrun
  rw [hrun]
  refine ⟨rfl, ?_⟩
  rw [List.forall₂_map_right_iff, List.forall₂_same]
  exact fun b _ => b.holds_contents

/-- A slot that is used again shows nothing of what it held, in a buffer and in its copy alike. -/
example : (RecordBuffer.ops.run [] [.ofSize 6 2 1, .pushBytes 0 [1, 2], .clear 0,
    .pushBytes 0 [3, 4], .emptyLike 0, .writeHeader 1 [7, 8], .copyFrom 0 1, .pushBytes 0 [5, 6],
    .pushBytes 0 [9]]).2.map RecordBuffer.contents =
      [⟨6, 2, [7], [[5, 6]]⟩, ⟨6, 2, [7], []⟩] := by
  decide +kernel

end BufferOps

end PulseDaq
