import PulseDaq.Record.Codec

/-!
# What reads as a record

Reading a record undoes writing it, and whatever reads as a record has been written as one.

* `Bytes.numberAt`: the number at a place of some bytes.
* `Reader.Undoes`: what a reader reads has been written. There is one lemma of this kind for each
  reader; `Event.read?_eq_some_iff` is the one for records.
* `Reader.Takes`: how many bytes a reader needs and uses up.
* `Event.exists_read?_iff`: there is a record in front of some bytes if they are as long as one of
  its kind is, a waveform with as many samples as the bytes say.
-/

namespace PulseDaq

/-! ## Numbers at a place -/

namespace Bytes

/-- The number in the `width` bytes at `offset`. -/
def numberAt (bytes : Bytes) (offset width : Nat) : Nat :=
  toNat ((bytes.drop offset).take width)

/-- A number stands where it has been written. -/
theorem numberAt_ofNat {front : Bytes} {offset width n : Nat} (hoffset : front.length = offset)
    (hn : n < bound width) (behind : Bytes) :
    numberAt (front ++ (ofNat width n ++ behind)) offset width = n := by
  rw [numberAt, List.drop_left' hoffset, List.take_left' (length_ofNat width n), toNat_ofNat,
    Nat.mod_eq_of_lt hn]

theorem numberAt_lt (bytes : Bytes) (offset : Nat) {width : Nat}
    (h : offset + width ≤ bytes.length) : numberAt bytes offset width < bound width := by
  have hlength : ((bytes.drop offset).take width).length = width :=
    List.length_take_of_le (by rw [List.length_drop]; omega)
  have hlt := toNat_lt ((bytes.drop offset).take width)
  rwa [hlength] at hlt

end Bytes

/-! ## Readers -/

namespace Reader

variable {α β : Type}

/-- What is read has been written, and nothing behind it is used up. -/
def Undoes (read : Reader α) (write : α → Bytes) : Prop :=
  ∀ ⦃bytes a behind⦄, read bytes = some (a, behind) → bytes = write a ++ behind

/-- The reader finds something in enough bytes, and uses up that many. -/
def Takes (read : Reader α) (size : Nat) : Prop :=
  ∀ ⦃bytes : Bytes⦄, size ≤ bytes.length → ∃ a, read bytes = some (a, bytes.drop size)

theorem bind_eq_some {read : Reader α} {next : α → Reader β} {bytes behind : Bytes} {b : β}
    (h : (read >>= next) bytes = some (b, behind)) :
    ∃ a rest, read bytes = some (a, rest) ∧ next a rest = some (b, behind) := by
  rw [bind_apply, Option.bind_eq_some_iff] at h
  obtain ⟨⟨a, rest⟩, hread, hnext⟩ := h
  exact ⟨a, rest, hread, hnext⟩

theorem bind_of_some {read : Reader α} {next : α → Reader β} {bytes rest : Bytes} {a : α}
    (h : read bytes = some (a, rest)) : (read >>= next) bytes = next a rest := by
  rw [bind_apply, h, Option.bind_some]

namespace Takes

theorem pure (a : α) : Takes (Pure.pure a) 0 :=
  fun _ _ => ⟨a, rfl⟩

theorem bind {read : Reader α} {next : α → Reader β} {m n : Nat} (hread : read.Takes m)
    (hnext : ∀ a, (next a).Takes n) : (read >>= next).Takes (m + n) := by
  intro bytes h
  obtain ⟨a, ha⟩ := hread (Nat.le_of_add_right_le h)
  have hleft : n ≤ (bytes.drop m).length := by rw [List.length_drop]; omega
  obtain ⟨b, hb⟩ := hnext a hleft
  exact ⟨b, by rw [bind_of_some ha, hb, List.drop_drop]⟩

end Takes

theorem number_eq {width : Nat} {bytes : Bytes} (h : width ≤ bytes.length) :
    number width bytes = some (bytes.numberAt 0 width, bytes.drop width) := by
  rw [number, Bytes.take?_eq, if_pos h, Bytes.numberAt, List.drop_zero]

theorem number_takes (width : Nat) : (number width).Takes width :=
  fun _ h => ⟨_, number_eq h⟩

theorem number_eq_some {width n : Nat} {bytes behind : Bytes}
    (h : number width bytes = some (n, behind)) :
    n < Bytes.bound width ∧ bytes = Bytes.ofNat width n ++ behind := by
  rw [number, Bytes.take?_eq] at h
  split at h
  next hle =>
    cases h
    have hlength : (bytes.take width).length = width := List.length_take_of_le hle
    have hlt := Bytes.toNat_lt (bytes.take width)
    have hfront := Bytes.ofNat_toNat (bytes.take width)
    rw [hlength] at hlt hfront
    exact ⟨hlt, by rw [hfront, List.take_append_drop]⟩
  · cases h

/-- A number is undone by what makes the same bytes of it again. -/
theorem undoes_of_number {width : Nat} {f : Nat → α} {write : α → Bytes}
    (h : ∀ n < Bytes.bound width, write (f n) = Bytes.ofNat width n) :
    Undoes (do return f (← number width)) write := by
  intro bytes a behind hread
  obtain ⟨n, rest, hn, ⟨⟩⟩ := bind_eq_some hread
  obtain ⟨hlt, rfl⟩ := number_eq_some hn
  rw [h n hlt]

theorem uint16_undoes : uint16.Undoes Bytes.ofUInt16 :=
  undoes_of_number fun _ h => by rw [Bytes.ofUInt16, UInt16.toNat_ofNat_of_lt' h]

theorem uint32_undoes : uint32.Undoes Bytes.ofUInt32 :=
  undoes_of_number fun _ h => by rw [Bytes.ofUInt32, UInt32.toNat_ofNat_of_lt' h]

theorem uint64_undoes : uint64.Undoes Bytes.ofUInt64 :=
  undoes_of_number fun _ h => by rw [Bytes.ofUInt64, UInt64.toNat_ofNat_of_lt' h]

theorem uint16_takes : uint16.Takes 2 :=
  (number_takes 2).bind fun _ => .pure _

theorem uint32_takes : uint32.Takes 4 :=
  (number_takes 4).bind fun _ => .pure _

theorem uint64_takes : uint64.Takes 8 :=
  (number_takes 8).bind fun _ => .pure _

theorem uint16s_eq_some {values : Array UInt16} {count : Nat} {bytes behind : Bytes}
    {xs : List UInt16} (h : uint16s values count bytes = some (xs, behind)) :
    ∃ ys : List UInt16, xs = values.toList ++ ys ∧ ys.length = count ∧
      bytes = ys.flatMap Bytes.ofUInt16 ++ behind := by
  induction count generalizing values bytes with
  | zero =>
    cases h
    exact ⟨[], by simp, rfl, rfl⟩
  | succ count ih =>
    obtain ⟨x, rest, hx, hrest⟩ := bind_eq_some h
    obtain ⟨ys, hxs, hlength, rfl⟩ := ih hrest
    refine ⟨x :: ys, by simp [hxs], by rw [List.length_cons, hlength], ?_⟩
    rw [uint16_undoes hx, List.flatMap_cons, List.append_assoc]

theorem uint16s_takes (values : Array UInt16) (count : Nat) :
    (uint16s values count).Takes (2 * count) := by
  induction count generalizing values with
  | zero => exact .pure _
  | succ count ih =>
    have hsize : 2 * (count + 1) = 2 + 2 * count := by omega
    rw [hsize]
    exact uint16_takes.bind fun x => ih (values.push x)

end Reader

theorem Interval.read_undoes : Interval.read.Undoes Interval.encode := by
  intro bytes i behind h
  obtain ⟨start, b₁, hstart, h⟩ := Reader.bind_eq_some h
  obtain ⟨stop, b₂, hstop, ⟨⟩⟩ := Reader.bind_eq_some h
  rw [Reader.uint16_undoes hstart, Reader.uint16_undoes hstop, encode, List.append_assoc]

theorem Interval.read_takes : Interval.read.Takes 4 :=
  Reader.uint16_takes.bind fun _ => Reader.uint16_takes.bind fun _ => .pure _

theorem CompactEvent.read_undoes : CompactEvent.read.Undoes CompactEvent.encode := by
  intro bytes e behind h
  obtain ⟨time, b₁, htime, h⟩ := Reader.bind_eq_some h
  obtain ⟨channel, b₂, hchannel, h⟩ := Reader.bind_eq_some h
  obtain ⟨charge, b₃, hcharge, ⟨⟩⟩ := Reader.bind_eq_some h
  rw [Reader.uint32_undoes htime, Reader.uint16_undoes hchannel, Reader.uint16_undoes hcharge]
  simp only [encode, List.append_assoc]

theorem CompactEvent.read_takes : CompactEvent.read.Takes RecordKind.compactSize :=
  Reader.uint32_takes.bind fun _ => Reader.uint16_takes.bind fun _ =>
    Reader.uint16_takes.bind fun _ => .pure _

theorem ExtendedEvent.read_undoes : ExtendedEvent.read.Undoes ExtendedEvent.encode := by
  intro bytes e behind h
  obtain ⟨time, b₁, htime, h⟩ := Reader.bind_eq_some h
  obtain ⟨channel, b₂, hchannel, h⟩ := Reader.bind_eq_some h
  obtain ⟨charge, b₃, hcharge, h⟩ := Reader.bind_eq_some h
  obtain ⟨baseline, b₄, hbaseline, ⟨⟩⟩ := Reader.bind_eq_some h
  rw [Reader.uint64_undoes htime, Reader.uint16_undoes hchannel, Reader.uint16_undoes hcharge,
    Reader.uint16_undoes hbaseline]
  simp only [encode, List.append_assoc]

theorem ExtendedEvent.read_takes : ExtendedEvent.read.Takes RecordKind.extendedSize :=
  Reader.uint64_takes.bind fun _ => Reader.uint16_takes.bind fun _ =>
    Reader.uint16_takes.bind fun _ => Reader.uint16_takes.bind fun _ => .pure _

namespace WaveformEvent

/-- A waveform has as many samples as it says, so there are not more than it can say. -/
theorem read_eq_some {bytes behind : Bytes} {e : WaveformEvent}
    (h : read bytes = some (e, behind)) :
    e.samples.length < UInt16.size ∧ bytes = e.encode ++ behind := by
  obtain ⟨x, b₁, hx, h⟩ := Reader.bind_eq_some h
  obtain ⟨count, b₂, hcount, h⟩ := Reader.bind_eq_some h
  obtain ⟨trigger, b₃, htrigger, h⟩ := Reader.bind_eq_some h
  obtain ⟨gate, b₄, hgate, h⟩ := Reader.bind_eq_some h
  obtain ⟨holdoff, b₅, hholdoff, h⟩ := Reader.bind_eq_some h
  obtain ⟨overthreshold, b₆, hover, h⟩ := Reader.bind_eq_some h
  obtain ⟨samples, b₇, hsamples, ⟨⟩⟩ := Reader.bind_eq_some h
  obtain ⟨ys, hys, hlength, rfl⟩ := Reader.uint16s_eq_some hsamples
  obtain rfl : samples = ys := hys
  have hsaid : UInt16.ofNat samples.length = count := by rw [hlength, UInt16.ofNat_toNat]
  refine ⟨hlength.symm ▸ count.toNat_lt, ?_⟩
  rw [ExtendedEvent.read_undoes hx, Reader.uint16_undoes hcount, Reader.uint16_undoes htrigger,
    Interval.read_undoes hgate, Interval.read_undoes hholdoff, Interval.read_undoes hover]
  simp only [encode, encodeHeader, hsaid, List.append_assoc]

/-- There is a waveform in front of bytes that are as long as one with as many samples as they
say. -/
theorem exists_read {bytes : Bytes}
    (h : RecordKind.waveform.elementSize (bytes.numberAt 14 2) ≤ bytes.length) :
    ∃ p, read bytes = some p := by
  have hlength : 30 + 2 * bytes.numberAt 14 2 ≤ bytes.length := h
  have hfront : RecordKind.extendedSize ≤ bytes.length :=
    Nat.le_trans (by decide) (Nat.le_of_add_right_le hlength)
  obtain ⟨x, hx⟩ := ExtendedEvent.read_takes hfront
  have hsaid : bytes.numberAt 14 2 < UInt16.size := bytes.numberAt_lt 14 (by omega)
  have hcount : Reader.uint16 (bytes.drop 14) =
      some (UInt16.ofNat (bytes.numberAt 14 2), bytes.drop 16) := by
    rw [Reader.uint16, Reader.bind_apply, Reader.number_eq (by rw [List.length_drop]; omega),
      Bytes.numberAt, List.drop_zero, List.drop_drop]
    rfl
  have hrest (count : UInt16) := Reader.uint16_takes.bind fun trigger =>
    Interval.read_takes.bind fun gate => Interval.read_takes.bind fun holdoff =>
    Interval.read_takes.bind fun overthreshold => (Reader.uint16s_takes #[] count.toNat).bind
    fun samples => .pure (WaveformEvent.mk x.time x.channel x.charge x.baseline trigger gate holdoff
      overthreshold samples)
  have hleft : 2 + (4 + (4 + (4 + (2 * (UInt16.ofNat (bytes.numberAt 14 2)).toNat + 0)))) ≤
      (bytes.drop 16).length := by
    rw [UInt16.toNat_ofNat_of_lt' hsaid, List.length_drop]
    omega
  obtain ⟨e, he⟩ := hrest (UInt16.ofNat (bytes.numberAt 14 2)) hleft
  unfold read
  exact ⟨_, (Reader.bind_of_some hx).trans ((Reader.bind_of_some hcount).trans he)⟩

end WaveformEvent

/-! ## Records -/

namespace Event

theorem read_eq_some {kind : RecordKind} {bytes behind : Bytes} {e : Event}
    (h : read kind bytes = some (e, behind)) :
    e.kind = kind ∧ e.samples.length < UInt16.size ∧ bytes = e.encode ++ behind := by
  cases kind with
  | compact =>
    rw [read, Reader.map_apply, Option.map_eq_some_iff] at h
    obtain ⟨⟨x, rest⟩, hx, ⟨⟩⟩ := h
    exact ⟨rfl, (by decide : 0 < UInt16.size), CompactEvent.read_undoes hx⟩
  | extended =>
    rw [read, Reader.map_apply, Option.map_eq_some_iff] at h
    obtain ⟨⟨x, rest⟩, hx, ⟨⟩⟩ := h
    exact ⟨rfl, (by decide : 0 < UInt16.size), ExtendedEvent.read_undoes hx⟩
  | waveform =>
    rw [read, Reader.map_apply, Option.map_eq_some_iff] at h
    obtain ⟨⟨x, rest⟩, hx, ⟨⟩⟩ := h
    exact ⟨rfl, WaveformEvent.read_eq_some hx⟩

/-- Bytes read as a record exactly if they begin with the record of an event of the kind, with no
more samples than can be counted. -/
theorem read?_eq_some_iff {kind : RecordKind} {bytes : Bytes} {e : Event} :
    read? kind bytes = some e ↔
      e.kind = kind ∧ e.samples.length < UInt16.size ∧ e.encode <+: bytes := by
  constructor
  · intro h
    obtain ⟨⟨x, rest⟩, hx, rfl⟩ := Option.map_eq_some_iff.1 h
    obtain ⟨hkind, hsamples, hbytes⟩ := read_eq_some hx
    exact ⟨hkind, hsamples, rest, hbytes.symm⟩
  · rintro ⟨rfl, hsamples, rest, rfl⟩
    exact read?_encode e hsamples rest

/-- What is read is written as the bytes from which it was read. -/
theorem encode_of_read? {kind : RecordKind} {bytes : Bytes} {e : Event}
    (h : read? kind bytes = some e) : e.encode = bytes.take e.elementSize := by
  obtain ⟨-, -, behind, rfl⟩ := read?_eq_some_iff.1 h
  rw [List.take_left' e.length_encode]

/-- What is read states its own size: a waveform has its sample count at byte 14. -/
theorem elementSize_of_read? {kind : RecordKind} {bytes : Bytes} {e : Event}
    (h : read? kind bytes = some e) : e.elementSize = kind.elementSize (bytes.numberAt 14 2) := by
  obtain ⟨rfl, hsamples, rest, rfl⟩ := read?_eq_some_iff.1 h
  cases e with
  | compact e => rfl
  | extended e => rfl
  | waveform e =>
    have hfront : (ExtendedEvent.encode ⟨e.time, e.channel, e.charge, e.baseline⟩).length = 14 := by
      simp [ExtendedEvent.encode]
    have hcount : UInt16.toNat (UInt16.ofNat e.samples.length) = e.samples.length :=
      UInt16.toNat_ofNat_of_lt' hsamples
    have hplace (behind : Bytes) : Bytes.numberAt (ExtendedEvent.encode _ ++
        (Bytes.ofNat 2 e.samples.length ++ behind)) 14 2 = e.samples.length :=
      Bytes.numberAt_ofNat hfront hsamples behind
    simp only [encode, WaveformEvent.encode, WaveformEvent.encodeHeader, List.append_assoc,
      Bytes.ofUInt16, hcount, hplace]
    rfl

/-- There is a record in front of some bytes if they are as long as one of its kind is, a waveform
with as many samples as they say. -/
theorem exists_read?_iff {kind : RecordKind} {bytes : Bytes} :
    (∃ e, read? kind bytes = some e) ↔
      kind.elementSize (bytes.numberAt 14 2) ≤ bytes.length := by
  constructor
  · rintro ⟨e, he⟩
    obtain ⟨-, -, hfront⟩ := read?_eq_some_iff.1 he
    rw [← elementSize_of_read? he, ← length_encode]
    exact hfront.length_le
  · intro h
    cases kind with
    | compact =>
      obtain ⟨x, hx⟩ := CompactEvent.read_takes h
      exact ⟨.compact x, by rw [read?, read, StateT.run, Reader.map_apply, hx]; rfl⟩
    | extended =>
      obtain ⟨x, hx⟩ := ExtendedEvent.read_takes h
      exact ⟨.extended x, by rw [read?, read, StateT.run, Reader.map_apply, hx]; rfl⟩
    | waveform =>
      obtain ⟨⟨x, rest⟩, hx⟩ := WaveformEvent.exists_read h
      exact ⟨.waveform x, by rw [read?, read, StateT.run, Reader.map_apply, hx]; rfl⟩

end Event

end PulseDaq
