import PulseDaq.Proofs.Record.Codec
import PulseDaq.Proofs.Record.Contents

/-!
# What reads as a unit

A unit is a run of slots of one size, and it can be read if each slot is filled by a record.

* `mapM_eq_ok_iff`, `exists_mapM_iff`: when something is read for every element of a list.
* `Event.ofRecord_eq_ok_iff`, `Event.exists_ofRecord_iff`: one slot.
* `Event.ofUnit_eq_ok_iff`: a unit as its slots.
* `RecordKind.Fills`: what a unit has to look like.
* `Event.exists_ofUnit_iff`, `Event.encodeAll_of_ofUnit`: which bytes are a unit, and of what.
* `Event.ofUnit_encodeAll`: records of one kind and one size, back to back, read back as the events
  that they are of.
* `Event.ofUnit_corresponds`: the main result.
-/

namespace PulseDaq

/-! ## One after the other -/

section Traversal

variable {α γ ε : Type} {f : γ → Except ε α} {l : List γ}

theorem mapM_cons_eq_ok_iff {x : γ} {ys : List α} :
    (x :: l).mapM f = .ok ys ↔ ∃ y rest, f x = .ok y ∧ l.mapM f = .ok rest ∧ ys = y :: rest := by
  rw [List.mapM_cons]
  constructor
  · intro h
    cases hx : f x with
    | error e =>
      rw [hx] at h
      cases h
    | ok y =>
      cases hrest : l.mapM f with
      | error e =>
        rw [hx, hrest] at h
        cases h
      | ok rest =>
        rw [hx, hrest] at h
        cases h
        exact ⟨y, rest, rfl, rfl, rfl⟩
  · rintro ⟨y, rest, hx, hrest, rfl⟩
    rw [hx, hrest]
    rfl

/-- The results are those of the elements, in order. -/
theorem mapM_eq_ok_iff {ys : List α} :
    l.mapM f = .ok ys ↔ List.Forall₂ (fun x y => f x = .ok y) l ys := by
  induction l generalizing ys with
  | nil =>
    rw [List.mapM_nil, List.forall₂_nil_left_iff]
    exact ⟨fun h => (Except.ok.inj h).symm, fun h => congrArg _ h.symm⟩
  | cons x l ih =>
    simp only [mapM_cons_eq_ok_iff, List.forall₂_cons_left_iff, ih]

/-- There are results if there is one for each element. -/
theorem exists_mapM_iff : (∃ ys, l.mapM f = .ok ys) ↔ ∀ x ∈ l, ∃ y, f x = .ok y := by
  induction l with
  | nil => exact ⟨fun _ => nofun, fun _ => ⟨[], rfl⟩⟩
  | cons x l ih =>
    rw [List.forall_mem_cons, ← ih]
    simp only [mapM_cons_eq_ok_iff]
    constructor
    · rintro ⟨-, y, rest, hx, hrest, -⟩
      exact ⟨⟨y, hx⟩, rest, hrest⟩
    · rintro ⟨⟨y, hx⟩, rest, hrest⟩
      exact ⟨_, y, rest, hx, hrest, rfl⟩

/-- If every number below `n` is mapped to its place in a list of `n`, all of them are mapped to the
list. -/
theorem mapM_range {ys : List α} {f : Nat → Except ε α}
    (h : ∀ i (hi : i < ys.length), f i = .ok ys[i]) : (List.range ys.length).mapM f = .ok ys := by
  refine mapM_eq_ok_iff.2 (List.forall₂_iff_get.2 ⟨List.length_range, fun i hi hys => ?_⟩)
  rw [List.get_eq_getElem, List.getElem_range]
  exact h i hys

end Traversal

/-! ## Slots -/

namespace Bytes

variable {bytes : Bytes} {size i : Nat}

theorem piece_eq (bytes : Bytes) (size i : Nat) :
    piece bytes.toArray size i = (bytes.drop (i * size)).take size := by
  rw [piece, Array.toList_extract, List.extract_eq_take_drop, Nat.succ_mul,
    Nat.add_sub_cancel_left]

theorem length_piece (h : i < bytes.length / size) :
    (piece bytes.toArray size i).length = size := by
  have hend : (i + 1) * size ≤ bytes.length :=
    Nat.le_trans (Nat.mul_le_mul_right size h) (Nat.div_mul_le_self _ _)
  rw [Nat.succ_mul] at hend
  rw [piece_eq, List.length_take_of_le]
  rw [List.length_drop]
  omega

/-- The pieces of bytes that are a whole number of them are all of the bytes. -/
theorem flatten_piece (h : size ∣ bytes.length) :
    ((List.range (bytes.length / size)).map (piece bytes.toArray size)).flatten = bytes := by
  have hwhole : 0 + bytes.length / size * size = bytes.toArray.size := by
    rw [Nat.zero_add, Nat.div_mul_cancel h, List.size_toArray]
  have hall := flatten_pieces 0 size (Nat.le_of_eq hwhole)
  rw [hwhole, Array.extract_size] at hall
  simp only [Nat.zero_add] at hall
  exact hall

/-- A number in a piece stands in the bytes so far behind the start of the piece. -/
theorem numberAt_piece {offset width : Nat} (h : offset + width ≤ size) :
    (piece bytes.toArray size i).numberAt offset width =
      bytes.numberAt (i * size + offset) width := by
  rw [piece_eq, numberAt, numberAt, List.drop_take, List.drop_drop, List.take_take,
    Nat.min_eq_left (by omega)]

end Bytes

namespace Event

variable {kind : RecordKind} {size index : Nat}

theorem ofRecord_eq_ok_iff {record : Bytes} {e : Event} :
    ofRecord kind size index record = .ok e ↔
      read? kind record = some e ∧ e.elementSize = size := by
  rw [ofRecord]
  constructor
  · intro h
    split at h
    next e' he =>
      split at h
      next hsize =>
        cases h
        exact ⟨he, hsize⟩
      · cases h
    · cases h
  · rintro ⟨he, hsize⟩
    rw [he]
    exact if_pos hsize

/-- A slot holds an event if it says of itself that it has the size that it has. -/
theorem exists_ofRecord_iff {record : Bytes} (hlength : record.length = size) :
    (∃ e, ofRecord kind size index record = .ok e) ↔
      kind.elementSize (record.numberAt 14 2) = size := by
  simp only [ofRecord_eq_ok_iff]
  constructor
  · rintro ⟨e, he, hsize⟩
    rw [← elementSize_of_read? he, hsize]
  · intro hsize
    obtain ⟨e, he⟩ := exists_read?_iff.2 (Nat.le_of_eq (hsize.trans hlength.symm))
    exact ⟨e, he, (elementSize_of_read? he).trans hsize⟩

/-- The record of the event in a slot is all of the slot. -/
theorem encode_of_ofRecord {record : Bytes} {e : Event} (hlength : record.length = size)
    (h : ofRecord kind size index record = .ok e) : e.encode = record := by
  obtain ⟨he, hsize⟩ := ofRecord_eq_ok_iff.1 h
  rw [encode_of_read? he, hsize, ← hlength, List.take_length]

/-- A unit is read slot by slot. -/
theorem ofUnit_eq_ok_iff {bytes : Bytes} {events : List Event} :
    ofUnit bytes kind size = .ok events ↔ 0 < size ∧ size ∣ bytes.length ∧
      (List.range (bytes.length / size)).mapM
        (fun i => ofRecord kind size i (Bytes.piece bytes.toArray size i)) = .ok events := by
  have hsize : bytes.toArray.size = bytes.length := List.size_toArray
  unfold ofUnit
  dsimp only
  rw [hsize, Nat.dvd_iff_mod_eq_zero]
  by_cases hpos : 0 < size
  · by_cases hwhole : bytes.length % size = 0
    · rw [if_neg (by omega)]
      simp only [hpos, hwhole, true_and]
    · rw [if_pos (by omega)]
      simp only [hwhole, false_and, and_false, reduceCtorEq]
  · rw [if_pos (by omega)]
    simp only [hpos, false_and, reduceCtorEq]

end Event

/-! ## Units -/

/-- The slots of `size` bytes that `bytes` are made of have the size of a record of `kind`, a
waveform with as many samples as its slot says. -/
def RecordKind.Fills (kind : RecordKind) (size : Nat) (bytes : Bytes) : Prop :=
  match kind with
  | .compact => size = 8
  | .extended => size = 14
  | .waveform => ∃ n, size = 30 + 2 * n ∧
      ∀ i < bytes.length / size, bytes.numberAt (i * size + 14) 2 = n

/-- Slot by slot: if there is a slot at all, every one has the size that it says. -/
theorem RecordKind.fills_iff {kind : RecordKind} {size : Nat} {bytes : Bytes}
    (hslot : 0 < bytes.length / size) :
    kind.Fills size bytes ↔ ∀ i < bytes.length / size,
      kind.elementSize ((Bytes.piece bytes.toArray size i).numberAt 14 2) = size := by
  cases kind with
  | compact => exact ⟨fun h _ _ => h.symm, fun h => (h 0 hslot).symm⟩
  | extended => exact ⟨fun h _ _ => h.symm, fun h => (h 0 hslot).symm⟩
  | waveform =>
    constructor
    · rintro ⟨n, rfl, hsaid⟩ i hi
      rw [Bytes.numberAt_piece (by omega), hsaid i hi]
      rfl
    · intro h
      refine ⟨(Bytes.piece bytes.toArray size 0).numberAt 14 2, (h 0 hslot).symm, fun i hi => ?_⟩
      have hroom : 30 + 2 * (Bytes.piece bytes.toArray size 0).numberAt 14 2 = size := h 0 hslot
      rw [← Bytes.numberAt_piece (by omega)]
      exact RecordKind.elementSize_waveform_inj ((h i hi).trans (h 0 hslot).symm)

namespace Event

/-- There are events in bytes exactly if they are a run of slots that can be filled. -/
theorem exists_ofUnit_iff {bytes : Bytes} {kind : RecordKind} {size : Nat} :
    (∃ events, ofUnit bytes kind size = .ok events) ↔
      0 < size ∧ size ∣ bytes.length ∧ (bytes ≠ [] → kind.Fills size bytes) := by
  simp only [ofUnit_eq_ok_iff, exists_and_left, exists_mapM_iff, List.mem_range]
  refine and_congr_right fun hpos => and_congr_right fun hwhole => ?_
  have hslots : (∀ i < bytes.length / size, ∃ e,
      ofRecord kind size i (Bytes.piece bytes.toArray size i) = .ok e) ↔
      ∀ i < bytes.length / size,
        kind.elementSize ((Bytes.piece bytes.toArray size i).numberAt 14 2) = size :=
    forall₂_congr fun i hi => exists_ofRecord_iff (Bytes.length_piece hi)
  rw [hslots]
  by_cases hempty : bytes = []
  · subst hempty
    simp
  · have hslot : 0 < bytes.length / size :=
      Nat.div_pos (Nat.le_of_dvd (List.length_pos_iff.2 hempty) hwhole) hpos
    rw [← RecordKind.fills_iff hslot]
    exact ⟨fun h _ => h, fun h => h hempty⟩

/-- The records of the events in some bytes are these bytes again. -/
theorem encodeAll_of_ofUnit {bytes : Bytes} {kind : RecordKind} {size : Nat} {events : List Event}
    (h : ofUnit bytes kind size = .ok events) : encodeAll events = bytes := by
  obtain ⟨-, hwhole, hslots⟩ := ofUnit_eq_ok_iff.1 h
  have hread := (List.forall₂_and_left _ _).2
    ⟨fun i hi => Bytes.length_piece (List.mem_range.1 hi), mapM_eq_ok_iff.1 hslots⟩
  have hrecords : List.Forall₂ (fun i e => Bytes.piece bytes.toArray size i = encode e)
      (List.range (bytes.length / size)) events :=
    hread.imp fun _ _ h => (encode_of_ofRecord h.1 h.2).symm
  have hencode : (List.range (bytes.length / size)).map (Bytes.piece bytes.toArray size) =
      events.map encode := by
    rwa [← List.forall₂_eq_eq_eq, List.forall₂_map_left_iff, List.forall₂_map_right_iff]
  rw [encodeAll, List.flatMap_def, ← hencode, Bytes.flatten_piece hwhole]

/-- Records of one kind and one size, back to back, read back as their events. -/
theorem ofUnit_encodeAll {kind : RecordKind} {size : Nat} {events : List Event} (hpos : 0 < size)
    (hkind : ∀ e ∈ events, e.kind = kind) (hsize : ∀ e ∈ events, e.elementSize = size)
    (hsamples : ∀ e ∈ events, e.samples.length < UInt16.size) :
    ofUnit (encodeAll events) kind size = .ok events := by
  have hflatten : encodeAll events = (events.map encode).flatten := List.flatMap_def
  have hrecords : ∀ r ∈ events.map encode, r.length = size := by
    intro r hr
    obtain ⟨e, he, rfl⟩ := List.mem_map.1 hr
    rw [length_encode, hsize e he]
  have hlength := length_encodeAll hsize
  refine ofUnit_eq_ok_iff.2 ⟨hpos, ⟨_, hlength.trans (Nat.mul_comm _ _)⟩, ?_⟩
  rw [hlength, Nat.mul_div_cancel _ hpos]
  refine mapM_range fun i hi => ?_
  have hmem := List.getElem_mem hi
  have hread := read?_encode events[i] (hsamples _ hmem) []
  rw [List.append_nil, hkind _ hmem] at hread
  rw [hflatten, Bytes.piece_flatten hrecords (by rwa [List.length_map]), List.getElem_map]
  exact ofRecord_eq_ok_iff.2 ⟨hread, hsize _ hmem⟩

/-- **Units.** Bytes are read as a unit exactly if they are a run of slots of the size of a record
of the kind, where each waveform has as many samples as its slot has room for. They are the records
of the events that are read from them, and the records of any events of one kind and size are a
unit of these events. -/
theorem ofUnit_corresponds :
    (∀ bytes kind size, (∃ events, ofUnit bytes kind size = .ok events) ↔
      0 < size ∧ size ∣ bytes.length ∧ (bytes ≠ [] → kind.Fills size bytes)) ∧
    (∀ bytes kind size events, ofUnit bytes kind size = .ok events → encodeAll events = bytes) ∧
    (∀ events kind size, events ≠ [] →
      (∀ e ∈ events, e.kind = kind ∧ e.elementSize = size ∧ e.samples.length ≤ 65535) →
      ofUnit (encodeAll events) kind size = .ok events) := by
  refine ⟨fun _ _ _ => exists_ofUnit_iff, fun _ _ _ _ => encodeAll_of_ofUnit, ?_⟩
  intro events kind size hsome hevents
  obtain ⟨e, he⟩ := List.exists_mem_of_ne_nil events hsome
  have hpos : 0 < size := (hevents e he).2.1 ▸ e.kind.elementSize_pos _
  exact ofUnit_encodeAll hpos (fun e he => (hevents e he).1) (fun e he => (hevents e he).2.1)
    (fun e he => Nat.lt_succ_of_le (hevents e he).2.2)

/-- A slot with room for two samples is refused if it says that it has four. -/
theorem ofUnit_corresponds_waveforms :
    let slot (count : UInt8) : Bytes :=
      List.replicate 14 0 ++ [count, 0] ++ List.replicate 18 0
    let e : Event := .waveform { time := 1, channel := 2, samples := [5, 6] }
    let f : Event := .waveform { time := 3, channel := 4, trigger := 1, samples := [7, 8] }
    (∃ events, ofUnit (slot 2 ++ slot 2) .waveform 34 = .ok events) ∧
      (∀ events, ofUnit (slot 2 ++ slot 2) .waveform 34 = .ok events →
        encodeAll events = slot 2 ++ slot 2) ∧
      (¬∃ events, ofUnit (slot 2 ++ slot 4) .waveform 34 = .ok events) ∧
      ofUnit (encodeAll [e, f]) .waveform 34 = .ok [e, f] := by
  intro slot e f
  refine ⟨(ofUnit_corresponds.1 _ _ _).2 ⟨by decide, by decide, fun _ => ⟨2, rfl, by decide⟩⟩,
    ofUnit_corresponds.2.1 _ _ _, fun hread => ?_,
    ofUnit_corresponds.2.2 _ _ _ (by simp) (by decide)⟩
  obtain ⟨n, -, hsaid⟩ := ((ofUnit_corresponds.1 _ _ _).1 hread).2.2 (by decide)
  have htwo : 2 = n := hsaid 0 (by decide)
  have hfour : 4 = n := hsaid 1 (by decide)
  omega

end Event

end PulseDaq
