import PulseDaq.Proofs.Record.Contents
import PulseDaq.Proofs.Session.Calls

/-!
# The record buffer of a session

A record buffer is made for a layout and beside a readout buffer. It has the slots that the options
give, as far as their bytes can be counted, or as many as the readout buffer has room for strides.

* `Session.exists_recordsFor`: there is one for every layout whose records have a size.
* `Session.recordsFor_eq_ok`: its geometry.
* `Session.recordsFor_eq_ofElements`: no default is so large that its bytes could not be counted.
-/

namespace PulseDaq

/-- No record is larger than a waveform. -/
theorem RecordKind.elementSize_le (kind : RecordKind) (samples : Nat) :
    kind.elementSize samples ≤ 30 + 2 * samples := by
  cases kind with
  | compact => exact Nat.le_trans (show compactSize ≤ 30 by decide) (Nat.le_add_right _ _)
  | extended => exact Nat.le_trans (show extendedSize ≤ 30 by decide) (Nat.le_add_right _ _)
  | waveform => exact Nat.le_refl _

namespace Layout

variable {V : FunctionId → Option UInt32 → UInt32 → Prop} {l : Layout}

/-- A record takes less than four times the bytes of the event that it is made of. -/
theorem MadeOf.elementSize_le_stride (h : l.MadeOf V) : l.elementSize ≤ 15 * l.format.stride := by
  have hle := l.kind.elementSize_le l.format.samples
  rw [h.elementSize]
  unfold GroupFormat.samples at hle ⊢
  unfold GroupFormat.stride
  omega

theorem MadeOf.elementSize_le (h : l.MadeOf V) : l.elementSize ≤ 30 + 2 * 32760 := by
  have hle := l.kind.elementSize_le l.format.samples
  have hsamples := h.samples_le
  have hmost : GroupFormat.maxSamples = 32760 := by decide
  rw [h.elementSize]
  omega

theorem MadeOf.length_groups_le (h : l.MadeOf V) : l.groups.length ≤ 8 := by
  obtain ⟨configuration, mask, recordLength, settings, -, -, -, -, hgroups, -, rfl⟩ := h
  have hgroups : (ofRegisters configuration.extras configuration.waveform recordLength
      settings).groups = GroupMask.groups mask.toUInt8.toNat := hgroups
  rw [hgroups]
  exact List.length_filter_le _ _

end Layout

namespace Session

variable {V : FunctionId → Option UInt32 → UInt32 → Prop} {layout : Layout}
  {options : SessionOptions} {readoutCapacity : Nat}

theorem exists_recordsFor (options : SessionOptions) (readoutCapacity : Nat)
    (h : 0 < layout.elementSize) :
    ∃ records, recordsFor options layout readoutCapacity = .ok records := by
  unfold recordsFor
  split <;> exact RecordBuffer.ofSize_of_pos _ h

/-- The records of the buffer are those of the layout. How many there may be is known if the options
do not say it. -/
theorem recordsFor_eq_ok {records : RecordBuffer}
    (h : recordsFor options layout readoutCapacity = .ok records) :
    records.elementSize = layout.elementSize ∧ records.headerSize = 0 ∧
      (options.bufferEvents = none → records.capacity = defaultSlots layout readoutCapacity) := by
  unfold recordsFor at h
  split at h
  next slots hslots =>
    obtain ⟨hsize, hheader, -⟩ := RecordBuffer.ofSize_eq_ok h
    exact ⟨hsize, hheader, fun hnone => nomatch hslots.symm.trans hnone⟩
  next =>
    obtain ⟨hsize, hheader, hcapacity⟩ := RecordBuffer.ofSize_eq_ok h
    refine ⟨hsize, hheader, fun _ => ?_⟩
    rw [hcapacity, Nat.sub_zero, Nat.mul_div_cancel _ (hsize ▸ records.elementSize_pos)]

/-- The bytes of the default can be counted, beside any readout buffer of less than a quarter of the
bytes that can be. -/
theorem defaultSlots_mul_lt (hlayout : layout.MadeOf V)
    (hreadout : readoutCapacity < UInt64.size / 4) :
    defaultSlots layout readoutCapacity * layout.elementSize < UInt64.size := by
  have hsize : UInt64.size = 18446744073709551616 := rfl
  have hstrides : readoutCapacity / (4 * layout.format.stride) * layout.elementSize <
      UInt64.size := by
    have hread := Nat.div_mul_le_self readoutCapacity (4 * layout.format.stride)
    have hrecords := Nat.mul_le_mul_left (readoutCapacity / (4 * layout.format.stride))
      hlayout.elementSize_le_stride
    rw [Nat.mul_left_comm] at hread hrecords
    omega
  have hgroups : layout.groups.length * layout.elementSize < UInt64.size := by
    have := Nat.mul_le_mul hlayout.length_groups_le hlayout.elementSize_le
    omega
  rw [defaultSlots, ← Nat.mul_max_mul_right]
  exact Nat.max_lt.2 ⟨hstrides, hgroups⟩

/-- A buffer with the default number of slots is made like one with a given number. -/
theorem recordsFor_eq_ofElements (hlayout : layout.MadeOf V)
    (hreadout : readoutCapacity < UInt64.size / 4) :
    recordsFor options layout readoutCapacity =
      RecordBuffer.ofElements
        (options.bufferEvents.getD (defaultSlots layout readoutCapacity)) layout.elementSize := by
  unfold recordsFor
  split
  next slots hslots => rw [hslots, Option.getD_some]
  next hnone =>
    rw [hnone, Option.getD_none,
      RecordBuffer.ofElements_eq_ofSize (defaultSlots_mul_lt hlayout hreadout)]

end Session

end PulseDaq
