import Mathlib.Order.Bounds.Basic
import PulseDaq.Proofs.Readout.Events
import PulseDaq.Proofs.Record.Contents
import PulseDaq.Record.Fill

/-!
# From a readout to records

Filling a buffer stores the events of a readout one after the other, as far as they fit. The first
event that does not fit is refused, and only if there is none the decoder's error counts.

* `RawEvent.Fit`: events whose records have the size of a slot, and for which there is room.
* `RecordBuffer.Filling`: what filling comes to. `RecordBuffer.fillFrom_filling` has it of whatever
  a decoder yields, by induction over its events.
* `RecordBuffer.fill_stores_most`: how much of a readout a buffer takes, and what the answer is.
* `RecordBuffer.fill_cases`: a cleared buffer takes a readout exactly if that is decoded without an
  error into events that fit. Then it holds their records, and none that it held before.
-/

namespace PulseDaq

/-- Events whose records of `kind` take `elementSize` bytes each, and at most `slots` of them. -/
structure RawEvent.Fit (kind : RecordKind) (elementSize slots : Nat) (raws : List RawEvent) :
    Prop where
  size : ∀ raw ∈ raws, (Event.ofRaw kind raw).elementSize = elementSize
  room : raws.length ≤ slots

theorem RawEvent.fit_nil (kind : RecordKind) (elementSize slots : Nat) :
    RawEvent.Fit kind elementSize slots [] where
  size := nofun
  room := Nat.zero_le _

theorem RawEvent.fit_cons {kind : RecordKind} {elementSize slots : Nat} {raw : RawEvent}
    {raws : List RawEvent} :
    RawEvent.Fit kind elementSize slots (raw :: raws) ↔
      (Event.ofRaw kind raw).elementSize = elementSize ∧ 0 < slots ∧
        RawEvent.Fit kind elementSize (slots - 1) raws := by
  constructor
  · rintro ⟨hsize, hroom⟩
    rw [List.length_cons] at hroom
    exact ⟨hsize raw List.mem_cons_self, by omega, fun r hr => hsize r (.tail _ hr), by omega⟩
  · rintro ⟨hsize, hpos, hrest⟩
    have hroom := hrest.room
    exact ⟨List.forall_mem_cons.2 ⟨hsize, hrest.size⟩, by rw [List.length_cons]; omega⟩

/-- The records of raw events. -/
def RawEvent.records (kind : RecordKind) (raws : List RawEvent) : List Bytes :=
  raws.map fun raw => (Event.ofRaw kind raw).encode

namespace RecordBuffer

section Filling

variable {kind : RecordKind} {b filled : RecordBuffer} {raw : RawEvent} {raws : List RawEvent}
  {fault : Option DecodeError} {k : Nat} {result : Except FillError Nat}

/-! ## One event -/

/-- An event that is not refused is stored, and the others come behind it. -/
theorem fillFrom_stored (h : b.refusal? (Event.ofRaw kind raw).encode.length = none) (stored : Nat)
    (rest : List (Except DecodeError RawEvent)) :
    b.fillFrom kind stored (.ok raw :: rest) = (b.store _ h).fillFrom kind (stored + 1) rest := by
  rw [fillFrom]
  split
  next => rfl
  next e he =>
    rw [h] at he
    cases he

/-- An event that is refused ends the filling. -/
theorem fillFrom_refused {e : BufferError}
    (h : b.refusal? (Event.ofRaw kind raw).encode.length = some e) (stored : Nat)
    (rest : List (Except DecodeError RawEvent)) :
    b.fillFrom kind stored (.ok raw :: rest) = (.error (.buffer e), b) := by
  rw [fillFrom]
  split
  next hnone =>
    rw [h] at hnone
    cases hnone
  next e' he =>
    rw [h] at he
    cases he
    rfl

/-- A push is refused for the same reason. -/
theorem push_refused {event : Event} {e : BufferError} (h : b.refusal? event.elementSize = some e) :
    b.push event = .error e := by
  rw [← Event.length_encode] at h
  unfold push pushBytes
  split
  next e' he =>
    rw [h] at he
    cases he
    rfl
  next hnone =>
    rw [h] at hnone
    cases hnone

/-! ## All events -/

/-- What filling `b` with events, and maybe an error behind them, comes to: the first `k` of them
are stored, and there is a reason why not more. -/
structure Filling (kind : RecordKind) (b : RecordBuffer) (raws : List RawEvent)
    (fault : Option DecodeError) (k : Nat) (result : Except FillError Nat) (filled : RecordBuffer) :
    Prop where
  le : k ≤ raws.length
  fit : RawEvent.Fit kind b.elementSize (b.capacity - b.count) (raws.take k)
  contents : filled.contents =
    { b.contents with records := b.records ++ RawEvent.records kind (raws.take k) }
  refused : ∀ raw, raws[k]? = some raw → ∃ e,
    filled.refusal? (Event.ofRaw kind raw).elementSize = some e ∧ result = .error (.buffer e)
  failed : k = raws.length → ∀ e, fault = some e → result = .error (.decode e)
  answered : k = raws.length → fault = none → result = .ok k

namespace Filling

/-- Nothing but the decoder's error is left. -/
theorem nothing (kind : RecordKind) (b : RecordBuffer) (fault : Option DecodeError) :
    Filling kind b [] fault 0 (match fault with | none => .ok 0 | some e => .error (.decode e)) b
    where
  le := Nat.le_refl _
  fit := RawEvent.fit_nil ..
  contents := by
    rw [RawEvent.records, List.take_nil, List.map_nil, List.append_nil]
    rfl
  refused _ h := by cases h
  failed _ e he := by rw [he]
  answered _ hfault := by rw [hfault]

/-- The first event is refused. -/
theorem refusal {e : BufferError} (h : b.refusal? (Event.ofRaw kind raw).encode.length = some e)
    (raws : List RawEvent) (fault : Option DecodeError) :
    Filling kind b (raw :: raws) fault 0 (.error (.buffer e)) b where
  le := Nat.zero_le _
  fit := RawEvent.fit_nil ..
  contents := by
    rw [RawEvent.records, List.take_zero, List.map_nil, List.append_nil]
    rfl
  refused _ hraw := by
    cases hraw
    exact ⟨e, Event.length_encode _ ▸ h, rfl⟩
  failed hlength := by cases hlength
  answered hlength := by cases hlength

/-- The first event is stored, and the buffer has one free slot less for the others. -/
theorem cons (href : b.refusal? (Event.ofRaw kind raw).encode.length = none)
    (h : Filling kind (b.store _ href) raws fault k result filled) :
    Filling kind b (raw :: raws) fault (k + 1) (result.map (1 + ·)) filled where
  le := Nat.succ_le_succ h.le
  fit := by
    obtain ⟨hlength, hfree⟩ := refusal?_eq_none_iff.1 href
    have hle := b.count_le_capacity
    have hslots : b.capacity - b.count - 1 =
        (b.store _ href).capacity - (b.store _ href).count := Nat.sub_sub ..
    rw [List.take_succ_cons]
    exact RawEvent.fit_cons.2
      ⟨(Event.length_encode _).symm.trans hlength, by omega, hslots ▸ h.fit⟩
  contents := by
    have hcontents := contents_store href
    have hrecords : (b.store _ href).records = _ := congrArg Contents.records hcontents
    rw [h.contents, hcontents, hrecords, List.take_succ_cons, RawEvent.records, RawEvent.records,
      List.map_cons, List.append_assoc, List.singleton_append]
  refused raw' hraw := by
    obtain ⟨e, he, hresult⟩ := h.refused raw' (by rwa [List.getElem?_cons_succ] at hraw)
    exact ⟨e, he, by rw [hresult]; rfl⟩
  failed hlength e he := by
    rw [h.failed (Nat.succ.inj hlength) e he]
    rfl
  answered hlength hfault := by
    rw [h.answered (Nat.succ.inj hlength) hfault, Nat.add_comm k]
    rfl

/-- Of the buffer only the number of its records has changed. -/
theorem refusal?_eq (h : Filling kind b raws fault k result filled) (size : Nat) :
    filled.refusal? size =
      if size ≠ b.elementSize then some (.elementSize b.elementSize size)
      else if b.count + k = b.capacity then some (.capacityExceeded b.capacity)
      else none := by
  obtain ⟨hsize, hcapacity, hlength⟩ := slots_of_contents h.contents
  have hcount : filled.count = b.count + k := by
    rw [hlength, List.length_append, b.length_records, RawEvent.records, List.length_map,
      List.length_take, Nat.min_eq_left h.le]
  rw [refusal?, hsize, hcapacity, hcount]

/-- The next event does not have the size of a slot, or there is no slot for it. -/
theorem refused_cases (h : Filling kind b raws fault k result filled) (hraw : raws[k]? = some raw) :
    (Event.ofRaw kind raw).elementSize ≠ b.elementSize ∧ result = .error (.buffer
        (.elementSize b.elementSize (Event.ofRaw kind raw).elementSize)) ∨
      (Event.ofRaw kind raw).elementSize = b.elementSize ∧ b.count + k = b.capacity ∧
        result = .error (.buffer (.capacityExceeded b.capacity)) := by
  obtain ⟨e, he, hresult⟩ := h.refused raw hraw
  rw [h.refusal?_eq] at he
  split at he
  next hsize =>
    cases he
    exact .inl ⟨hsize, hresult⟩
  next hsize =>
    split at he
    next hfull =>
      cases he
      exact .inr ⟨Decidable.not_not.1 hsize, hfull, hresult⟩
    · cases he

/-- More events do not fit. -/
theorem greatest (h : Filling kind b raws fault k result filled) :
    IsGreatest {n | n ≤ raws.length ∧
      RawEvent.Fit kind b.elementSize (b.capacity - b.count) (raws.take n)} k := by
  refine ⟨⟨h.le, h.fit⟩, fun n ⟨hn, hfit⟩ => Nat.le_of_not_lt fun hlt => ?_⟩
  have hk : k < raws.length := Nat.lt_of_lt_of_le hlt hn
  have hmem : raws[k] ∈ raws.take n := List.mem_take_iff_getElem.2 ⟨k, by omega, rfl⟩
  have hroom := hfit.room
  rw [List.length_take, Nat.min_eq_left hn] at hroom
  obtain ⟨hsize, -⟩ | ⟨-, hfull, -⟩ := h.refused_cases (List.getElem?_eq_getElem hk)
  · exact hsize (hfit.size _ hmem)
  · omega

theorem of_fit (h : Filling kind b raws fault k result filled)
    (hfit : RawEvent.Fit kind b.elementSize (b.capacity - b.count) raws) : k = raws.length :=
  Nat.le_antisymm h.le (h.greatest.2 ⟨Nat.le_refl _, by rwa [List.take_length]⟩)

/-- Only if nothing is left, the answer is no error. -/
theorem of_answered (h : Filling kind b raws fault k result filled) {n : Nat}
    (hresult : result = .ok n) : n = k ∧ k = raws.length ∧ fault = none := by
  have hall : k = raws.length := by
    by_contra hne
    have hk : k < raws.length := Nat.lt_of_le_of_ne h.le hne
    obtain ⟨e, -, herror⟩ := h.refused _ (List.getElem?_eq_getElem hk)
    rw [hresult] at herror
    cases herror
  cases fault with
  | none =>
    have hanswer := h.answered hall rfl
    rw [hresult] at hanswer
    exact ⟨Except.ok.inj hanswer, hall, rfl⟩
  | some e =>
    have herror := h.failed hall e rfl
    rw [hresult] at herror
    cases herror

/-- Only if there are more events than free slots, one is refused for want of a slot. -/
theorem full (h : Filling kind b raws fault k result filled) {n : Nat}
    (hresult : result = .error (.buffer (.capacityExceeded n))) :
    b.capacity < b.count + raws.length := by
  by_cases hk : k < raws.length
  · obtain ⟨-, hcause⟩ | ⟨-, hfull, -⟩ := h.refused_cases (List.getElem?_eq_getElem hk)
    · rw [hcause] at hresult
      cases hresult
    · omega
  · have hall := Nat.le_antisymm h.le (Nat.le_of_not_lt hk)
    cases fault with
    | none => cases (h.answered hall rfl).symm.trans hresult
    | some e => cases (h.failed hall e rfl).symm.trans hresult

theorem answered_iff (h : Filling kind b raws fault k result filled) :
    result = .ok k ↔ k = raws.length ∧ fault = none :=
  ⟨fun hresult => (h.of_answered hresult).2, fun ⟨hall, hfault⟩ => h.answered hall hfault⟩

end Filling

/-- Events, and maybe an error behind them, are taken up one after the other. -/
theorem fillFrom_filling (kind : RecordKind) (b : RecordBuffer) (stored : Nat)
    (raws : List RawEvent) (fault : Option DecodeError) :
    ∃ k result filled, Filling kind b raws fault k result filled ∧
      b.fillFrom kind stored (raws.map .ok ++ (fault.map .error).toList) =
        (result.map (stored + ·), filled) := by
  -- With every event that is stored the buffer has one free slot less.
  induction raws generalizing b stored with
  | nil =>
    refine ⟨0, _, b, .nothing kind b fault, ?_⟩
    cases fault with
    | none => rfl
    | some e => rfl
  | cons raw raws ih =>
    rw [List.map_cons, List.cons_append]
    cases href : b.refusal? (Event.ofRaw kind raw).encode.length with
    | none =>
      obtain ⟨k, result, filled, hfilling, hfill⟩ := ih (b.store _ href) (stored + 1)
      refine ⟨k + 1, _, filled, hfilling.cons href, ?_⟩
      rw [fillFrom_stored href, hfill]
      cases result with
      | error e => rfl
      | ok n => simp only [Except.map, Nat.add_assoc]
    | some e => exact ⟨0, _, b, .refusal href raws fault, fillFrom_refused href stored _⟩

/-- A readout fills a buffer with its events. -/
theorem fill_filling (kind : RecordKind) (b : RecordBuffer) (readout : Bytes) :
    ∃ fault k, decode readout =
        (decodedEvents readout).map .ok ++ (fault.map .error).toList ∧
      Filling kind b (decodedEvents readout) fault k (b.fill kind readout).1
        (b.fill kind readout).2 := by
  obtain ⟨fault, hdecode⟩ := decode_eq_append readout
  obtain ⟨k, result, filled, hfilling, hfill⟩ :=
    fillFrom_filling kind b 0 (decodedEvents readout) fault
  have hresult : result.map (0 + ·) = result := by
    cases result with
    | error e => rfl
    | ok n => simp only [Except.map, Nat.zero_add]
  rw [hresult, ← hdecode] at hfill
  exact ⟨fault, k, hdecode, by rwa [fill, hfill]⟩

end Filling

/-! ## Main result -/

/-- Fill a buffer, whatever it holds, from any readout. The first `k` events of the readout are
stored behind what the buffer held, where `k` is the greatest number of first events that have the
size of a slot and for which there are free slots; the header and the other records stay. The answer
is `k` exactly if these are all events and the decoder has not failed. If there is one more event,
the answer is the error of pushing it; else it is the decoder's. -/
theorem fill_stores_most (kind : RecordKind) (b : RecordBuffer) (readout : Bytes) :
    ∃ fault k result filled,
      decode readout = (decodedEvents readout).map .ok ++ (fault.map .error).toList ∧
      b.fill kind readout = (result, filled) ∧
      IsGreatest {n | n ≤ (decodedEvents readout).length ∧
        RawEvent.Fit kind b.elementSize (b.capacity - b.count) ((decodedEvents readout).take n)} k ∧
      filled.contents = { b.contents with
        records := b.records ++ RawEvent.records kind ((decodedEvents readout).take k) } ∧
      (result = .ok k ↔ k = (decodedEvents readout).length ∧ fault = none) ∧
      (∀ raw, (decodedEvents readout)[k]? = some raw → ∃ e,
        filled.push (Event.ofRaw kind raw) = .error e ∧ result = .error (.buffer e) ∧
        e = if (Event.ofRaw kind raw).elementSize ≠ b.elementSize
          then .elementSize b.elementSize (Event.ofRaw kind raw).elementSize
          else .capacityExceeded b.capacity) ∧
      (k = (decodedEvents readout).length → ∀ e, fault = some e → result = .error (.decode e)) := by
  obtain ⟨fault, k, hdecode, h⟩ := fill_filling kind b readout
  refine ⟨fault, k, _, _, hdecode, rfl, h.greatest, h.contents, h.answered_iff, fun raw hraw => ?_,
    h.failed⟩
  obtain ⟨e, he, hresult⟩ := h.refused raw hraw
  refine ⟨e, push_refused he, hresult, ?_⟩
  obtain ⟨hsize, hcause⟩ | ⟨hsize, -, hcause⟩ := h.refused_cases hraw
  · rw [if_pos hsize]
    cases hresult.symm.trans hcause
    rfl
  · rw [if_neg (not_not_intro hsize)]
    cases hresult.symm.trans hcause
    rfl

/-! ## Cleared buffers -/

/-- A cleared buffer takes a readout exactly if all of it is decoded and fits. Then it holds the
records of the readout, and whatever it held before is gone. -/
theorem fill_cases (kind : RecordKind) (b : RecordBuffer) (readout : Bytes) :
    (∃ raws filled, decode readout = raws.map .ok ∧
      RawEvent.Fit kind b.elementSize b.capacity raws ∧
      b.clear.fill kind readout = (.ok raws.length, filled) ∧
      filled.contents = { b.contents with records := RawEvent.records kind raws }) ∨
    (∃ e filled records, (∀ raws, decode readout = raws.map .ok →
        ¬RawEvent.Fit kind b.elementSize b.capacity raws) ∧
      b.clear.fill kind readout = (.error e, filled) ∧
      filled.contents = { b.contents with records }) := by
  obtain ⟨fault, k, hdecode, h⟩ := fill_filling kind b.clear readout
  have hcontents := b.contents_clear
  have hrecords : b.clear.records = [] := congrArg Contents.records hcontents
  have hleft := h.contents
  rw [hcontents, hrecords, List.nil_append] at hleft
  cases hfill : b.clear.fill kind readout with
  | mk result filled =>
    rw [hfill] at h hleft
    cases result with
    | ok n =>
      obtain ⟨rfl, hall, rfl⟩ := h.of_answered rfl
      have hfit := h.fit
      rw [hall, List.take_length] at hleft hfit
      exact .inl ⟨decodedEvents readout, filled, hdecode.trans (List.append_nil _), hfit,
        by rw [hall], hleft⟩
    | error e =>
      refine .inr ⟨e, filled, _, fun raws hraws hfit => ?_, rfl, hleft⟩
      obtain ⟨rfl, rfl⟩ := decodedEvents_of_ok hraws hdecode
      cases h.answered (h.of_fit hfit) rfl

/-- A cleared buffer refuses an event of another size than its slots have. -/
theorem fill_refused {kind : RecordKind} {b : RecordBuffer} {readout : Bytes} {raw : RawEvent}
    {rest : List (Except DecodeError RawEvent)} {size : Nat}
    (hdecode : decode readout = .ok raw :: rest) (hsize : (Event.ofRaw kind raw).elementSize = size)
    (hne : size ≠ b.elementSize) :
    b.clear.fill kind readout = (.error (.buffer (.elementSize b.elementSize size)), b.clear) := by
  rw [fill, hdecode]
  refine fillFrom_refused ?_ 0 rest
  rw [Event.length_encode, hsize]
  exact if_pos hne

end RecordBuffer

namespace Event

/-- The size of a record follows from the samples of the event. -/
theorem elementSize_ofRaw (kind : RecordKind) (raw : RawEvent) :
    (ofRaw kind raw).elementSize = kind.elementSize raw.samples.length := by
  cases kind with
  | compact => rfl
  | extended => rfl
  | waveform =>
    show RecordKind.waveform.elementSize (WaveformEvent.ofRaw raw).samples.length = _
    rw [WaveformEvent.ofRaw, List.length_map]

end Event

end PulseDaq
