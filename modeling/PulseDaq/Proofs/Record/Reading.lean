import PulseDaq.Proofs.Record.Codec
import PulseDaq.Proofs.Record.Contents

/-!
# Reading back exactly

A record that is read is as many bytes as it takes when it is written, byte for byte. So a buffer
into which events of one kind are pushed shows these events, although reading it passes over
records that it cannot read.

* `Event.read?_congr`: no byte behind a record matters.
* `RecordBuffer.pushEach`: push one event after the other; a refused one is left out.
* `RecordBuffer.pushEach_stored`: which events a buffer takes; `RecordBuffer.contents_pushEach`:
  what it holds of them. Both are by induction over the events, from `RecordBuffer.push_cases`.
* `Event.read?_exact`: the main result, on bytes and on buffers.
-/

namespace PulseDaq

/-! ## Records in front of bytes -/

namespace Event

variable {kind : RecordKind} {bytes other : Bytes} {e : Event} {events : List Event}

/-- The same event is read off all bytes that begin with its record. -/
theorem read?_congr (h : read? kind bytes = some e)
    (hfront : other.take e.elementSize = bytes.take e.elementSize) :
    read? kind other = some e := by
  obtain ⟨hkind, hsamples, -⟩ := read?_eq_some_iff.1 h
  refine read?_eq_some_iff.2 ⟨hkind, hsamples, ?_⟩
  rw [encode_of_read? h, ← hfront]
  exact List.take_prefix _ _

/-- A record that is written over bytes of its own size leaves none of them. -/
theorem toList_overwrite_encode {out : Array UInt8} (h : out.size = e.elementSize) :
    (Bytes.overwrite out 0 e.encode).toList = e.encode := by
  have hall : out.toList.length ≤ 0 + e.encode.length :=
    Nat.le_of_eq (by rw [Array.length_toList, h, length_encode, Nat.zero_add])
  rw [Bytes.toList_overwrite (Nat.zero_le _), List.take_zero, List.nil_append,
    List.drop_of_length_le hall, List.append_nil]

/-- Events of one kind, with no more samples than a record can count. -/
def Recordable (kind : RecordKind) (events : List Event) : Prop :=
  ∀ e ∈ events, e.kind = kind ∧ e.samples.length < UInt16.size

instance (kind : RecordKind) (events : List Event) : Decidable (Recordable kind events) :=
  inferInstanceAs (Decidable (∀ e ∈ events, e.kind = kind ∧ e.samples.length < UInt16.size))

/-- The records of such events are all read, and in their order. -/
theorem filterMap_read?_encode (h : Recordable kind events) :
    (events.map encode).filterMap (read? kind) = events := by
  have hread : ∀ e ∈ events, (read? kind ∘ encode) e = some e := fun e he =>
    read?_eq_some_iff.2 ⟨(h e he).1, (h e he).2, List.prefix_rfl⟩
  rw [List.filterMap_map, List.filterMap_congr hread, List.filterMap_some]

end Event

/-! ## Records in a buffer -/

namespace RecordBuffer

variable {b b' : RecordBuffer} {e : Event}

/-- An event is stored behind the others if it has the size of a slot and a slot is free; else it is
refused. -/
theorem push_cases (b : RecordBuffer) (e : Event) :
    (∃ b', b.push e = .ok b' ∧ e.elementSize = b.elementSize ∧ b.count < b.capacity ∧
        b'.contents = { b.contents with records := b.records ++ [e.encode] }) ∨
      ∃ error, b.push e = .error error ∧
        (e.elementSize = b.elementSize → b.count = b.capacity) := by
  have hpush := b.contents_push e
  have helement : b.contents.elementSize = b.elementSize := rfl
  have hcount : b.contents.records.length = b.count := b.length_records
  unfold Contents.push Contents.append at hpush
  rw [helement, hcount, capacity_contents] at hpush
  cases hanswer : b.push e with
  | ok b' =>
    rw [hanswer] at hpush
    split at hpush
    · cases hpush
    next hsize =>
      split at hpush
      · cases hpush
      next hfree =>
        have hroom := Nat.lt_of_le_of_ne b.count_le_capacity hfree
        exact .inl ⟨b', rfl, Decidable.not_not.1 hsize, hroom, Except.ok.inj hpush⟩
  | error error =>
    rw [hanswer] at hpush
    refine .inr ⟨error, rfl, fun hsize => Decidable.byContradiction fun hfree => ?_⟩
    rw [if_neg (not_not_intro hsize), if_neg hfree] at hpush
    cases hpush

/-- Push events one after the other: those that are stored, and the buffer behind them. A refused
event leaves the buffer as it is. -/
def pushEach (b : RecordBuffer) : List Event → List Event × RecordBuffer
  | [] => ([], b)
  | e :: events =>
    match b.push e with
    | .ok b' => ((e :: (b'.pushEach events).1), (b'.pushEach events).2)
    | .error _ => b.pushEach events

theorem pushEach_of_ok (h : b.push e = .ok b') (events : List Event) :
    b.pushEach (e :: events) = (e :: (b'.pushEach events).1, (b'.pushEach events).2) := by
  rw [pushEach, h]

theorem pushEach_of_error {error : BufferError} (h : b.push e = .error error)
    (events : List Event) : b.pushEach (e :: events) = b.pushEach events := by
  rw [pushEach, h]

/-- A buffer takes the events that have the size of its slots, as long as there are free ones. -/
theorem pushEach_stored (b : RecordBuffer) (events : List Event) :
    (b.pushEach events).1 =
      (events.filter (·.elementSize = b.elementSize)).take (b.capacity - b.count) := by
  -- With every event that is stored the buffer has one free slot less.
  induction events generalizing b with
  | nil => rw [List.filter_nil, List.take_nil, pushEach]
  | cons e events ih =>
    obtain ⟨b', hpush, hsize, hroom, hcontents⟩ | ⟨error, hpush, hfull⟩ := b.push_cases e
    · obtain ⟨helement, hcapacity, hcount⟩ := slots_of_contents hcontents
      have hslots : b.capacity - b.count = b'.capacity - b'.count + 1 := by
        rw [hcapacity, hcount, List.length_append, length_records, List.length_singleton]
        omega
      rw [pushEach_of_ok hpush, ih, hslots, helement,
        List.filter_cons_of_pos (by simpa using hsize), List.take_succ_cons]
    · rw [pushEach_of_error hpush, ih]
      by_cases hsize : e.elementSize = b.elementSize
      · rw [hfull hsize, Nat.sub_self, List.take_zero, List.take_zero]
      · rw [List.filter_cons_of_neg (by simpa using hsize)]

/-- Behind what the buffer held stand the records of the events that it has taken. -/
theorem contents_pushEach (b : RecordBuffer) (events : List Event) :
    (b.pushEach events).2.contents = { b.contents with
      records := b.records ++ (b.pushEach events).1.map Event.encode } := by
  induction events generalizing b with
  | nil =>
    rw [pushEach, List.map_nil, List.append_nil]
    rfl
  | cons e events ih =>
    obtain ⟨b', hpush, -, -, hcontents⟩ | ⟨error, hpush, -⟩ := b.push_cases e
    · have hrecords : b'.records = b.records ++ [e.encode] := congrArg Contents.records hcontents
      rw [pushEach_of_ok hpush, ih, hcontents, hrecords, List.map_cons, List.append_assoc,
        List.singleton_append]
    · rw [pushEach_of_error hpush, ih]

/-- Whatever the buffer held of a kind, behind it all events that it has taken are read, and no
other. -/
theorem events_pushEach {kind : RecordKind} {events : List Event}
    (h : Event.Recordable kind events) (b : RecordBuffer) :
    (b.pushEach events).2.events kind = b.events kind ++ (b.pushEach events).1 := by
  have hstored : Event.Recordable kind (b.pushEach events).1 := fun e he => by
    rw [pushEach_stored] at he
    exact h e (List.mem_of_mem_filter (List.mem_of_mem_take he))
  have hrecords : (b.pushEach events).2.records = _ :=
    congrArg Contents.records (b.contents_pushEach events)
  rw [RecordBuffer.events, hrecords, List.filterMap_append, Event.filterMap_read?_encode hstored,
    RecordBuffer.events]

/-- An empty buffer shows just the events that it takes. -/
theorem events_pushEach_of_empty {kind : RecordKind} {events : List Event}
    (h : Event.Recordable kind events) {b : RecordBuffer} (hempty : b.count = 0) :
    (b.pushEach events).2.events kind = (b.pushEach events).1 := by
  have hnone : b.events kind = [] := by
    rw [RecordBuffer.events, List.eq_nil_of_length_eq_zero (b.length_records.trans hempty),
      List.filterMap_nil]
  rw [events_pushEach h, hnone, List.nil_append]

theorem count_pushEach (b : RecordBuffer) (events : List Event) :
    (b.pushEach events).2.count = b.count + (b.pushEach events).1.length := by
  rw [(slots_of_contents (b.contents_pushEach events)).2.2, List.length_append, length_records,
    List.length_map]

end RecordBuffer

/-! ## Main result -/

namespace Event

/-- There is a record in front of exactly those bytes that are long enough for it. It takes as many
bytes as its kind and the count at byte 14 say; the bytes behind these do not matter, and writing
it makes the same bytes again. What is written is read again, whatever follows it. Hence a buffer
into which events of a kind are pushed shows, behind what it held, all that it has taken, which are
the first of those that have the size of a slot, as many as there were free slots. -/
theorem read?_exact :
    (∀ bytes : Bytes,
      ((∃ e, read? .compact bytes = some e) ↔ 8 ≤ bytes.length) ∧
      ((∃ e, read? .extended bytes = some e) ↔ 14 ≤ bytes.length) ∧
      ((∃ e, read? .waveform bytes = some e) ↔ 30 + 2 * bytes.numberAt 14 2 ≤ bytes.length)) ∧
    (∀ kind bytes e, read? kind bytes = some e →
      e.kind = kind ∧ e.elementSize = kind.elementSize (bytes.numberAt 14 2) ∧
      (∀ other : Bytes, other.take e.elementSize = bytes.take e.elementSize →
        read? kind other = some e) ∧
      ∀ out : Array UInt8, out.size = e.elementSize →
        (Bytes.overwrite out 0 e.encode).toList = bytes.take e.elementSize) ∧
    (∀ (e : Event) (out : Array UInt8) (behind : Bytes), e.samples.length < UInt16.size →
      out.size = e.elementSize →
      read? e.kind ((Bytes.overwrite out 0 e.encode).toList ++ behind) = some e) ∧
    ∀ kind events, Recordable kind events → ∀ b : RecordBuffer,
      (b.pushEach events).2.events kind = b.events kind ++ (b.pushEach events).1 ∧
      (b.count = 0 → (b.pushEach events).2.events kind = (b.pushEach events).1) ∧
      (b.pushEach events).2.count = b.count + (b.pushEach events).1.length ∧
      (b.pushEach events).1 =
        (events.filter (·.elementSize = b.elementSize)).take (b.capacity - b.count) := by
  refine ⟨fun bytes => ⟨exists_read?_iff, exists_read?_iff, exists_read?_iff⟩,
    fun kind bytes e he => ⟨(read?_eq_some_iff.1 he).1, elementSize_of_read? he,
      fun other => read?_congr he, fun out hout => ?_⟩,
    fun e out behind hsamples hout => ?_,
    fun kind events h b => ⟨b.events_pushEach h, b.events_pushEach_of_empty h,
      b.count_pushEach events, b.pushEach_stored events⟩⟩
  · rw [toList_overwrite_encode hout, encode_of_read? he]
  · rw [toList_overwrite_encode hout]
    exact read?_encode e hsamples behind

/-- Waveforms, of which the second has a sample less than the others. -/
def pulses : List Event :=
  [.waveform { time := 5, samples := [7, 511] }, .waveform { time := 6, samples := [3] },
    .waveform { time := 7, samples := [65535, 0] }, .waveform { time := 8, samples := [1, 1] }]

/-- An empty buffer with slots for two of these, in which others have stood before. -/
def usedSlots : RecordBuffer where
  capacityBytes := 70
  elementSize := 34
  headerSize := 1
  data := Array.replicate 69 9
  elementSize_pos := by decide
  header_le := by decide
  used_le := by decide
  size_le := by decide

/-- Without its last byte a waveform cannot be read, and with others behind it it can. Of the pulses
the buffer takes the first and the third. -/
theorem read?_exact_pulses :
    Recordable .waveform pulses ∧ usedSlots.count = 0 ∧
    (Array.replicate 34 9).size = pulses[0].elementSize ∧
    read? .waveform (pulses[0].encode ++ [1, 2]) = some pulses[0] ∧
    (¬ ∃ e, read? .waveform (pulses[0].encode.take 33) = some e) ∧
    read? .waveform (pulses[0].encode ++ [8]) = some pulses[0] ∧
    (Bytes.overwrite (Array.replicate 34 9) 0 pulses[0].encode).toList =
      (pulses[0].encode ++ [1, 2]).take 34 ∧
    read? .waveform ((Bytes.overwrite (Array.replicate 34 9) 0 pulses[0].encode).toList ++ [1, 2]) =
      some pulses[0] ∧
    (usedSlots.pushEach pulses).2.events .waveform = [pulses[0], pulses[2]] := by
  obtain ⟨hlength, hread, hwritten, hbuffer⟩ := read?_exact
  have hpulses : Recordable .waveform pulses := by decide
  have hpulse : read? .waveform (pulses[0].encode ++ [1, 2]) = some pulses[0] := by decide
  obtain ⟨-, -, hfront, hwrite⟩ := hread .waveform _ _ hpulse
  obtain ⟨-, hempty, -, hstored⟩ := hbuffer .waveform pulses hpulses usedSlots
  refine ⟨hpulses, rfl, rfl, hpulse, ?_, hfront _ rfl, hwrite _ rfl,
    hwritten pulses[0] _ [1, 2] (by decide) rfl, ?_⟩
  · rw [(hlength _).2.2]
    decide
  · rw [hempty rfl, hstored]
    decide

end Event

end PulseDaq
