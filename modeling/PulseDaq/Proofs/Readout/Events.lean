import PulseDaq.Proofs.Readout.Frames
import PulseDaq.Proofs.Readout.Safety

/-!
# Decoded events

A readout is decoded into events, with at most one error behind them. The decoder yields an event
only with all the words of its format, and with a format that a format word can state, also in front
of an error.

* `decodedEvents`: the events of a readout; `decode_eq_append` says what else there is.
* `length_decodedEvents_le`: events do not share bytes, so a readout has room for only so many.
* `RawEvent.Proper`: an event has its words and its format. `proper_of_decode` has it of every
  decoded event.
* `RawEvent.half`: where a sample stands in the words of an event.
* `RawEvent.Proper.samples_eq`: the samples of a proper event are those of its half words, as many
  as its format says, which are at most `GroupFormat.maxSamples`.
-/

namespace PulseDaq

/-! ## Events and the error behind them -/

/-- The events among what a decoder yields. -/
def eventsOf (results : List (Except DecodeError RawEvent)) : List RawEvent :=
  results.filterMap Except.toOption

/-- The events of a readout, as far as it can be decoded. -/
def decodedEvents (bytes : Bytes) : List RawEvent :=
  eventsOf (decode bytes)

@[simp] theorem eventsOf_nil : eventsOf [] = [] :=
  rfl

@[simp] theorem eventsOf_ok (e : RawEvent) (rest : List (Except DecodeError RawEvent)) :
    eventsOf (.ok e :: rest) = e :: eventsOf rest :=
  rfl

@[simp] theorem eventsOf_error (e : DecodeError) (rest : List (Except DecodeError RawEvent)) :
    eventsOf (.error e :: rest) = eventsOf rest :=
  rfl

@[simp] theorem eventsOf_map_ok (raws : List RawEvent) : eventsOf (raws.map .ok) = raws := by
  rw [eventsOf, List.filterMap_map]
  exact List.filterMap_some

namespace Decoder

/-- An error ends what the decoder yields, and there is none before. -/
theorem results_eq_append (d : Decoder) : ∃ fault : Option DecodeError,
    d.results = (eventsOf d.results).map .ok ++ (fault.map .error).toList := by
  induction d using inductionOn with
  | event d e d' h ih =>
    obtain ⟨fault, hrest⟩ := ih
    refine ⟨fault, ?_⟩
    rw [results_event h, eventsOf_ok, List.map_cons, List.cons_append, ← hrest]
  | moved d d' h ih =>
    rw [results_moved h]
    exact ih
  | done d h =>
    rw [results_done h]
    exact ⟨none, rfl⟩
  | failed d e h =>
    rw [results_failed h]
    exact ⟨some e, rfl⟩

/-- Every event takes its stride of what is left of the readout. -/
theorem InBounds.room {d : Decoder} (hb : d.InBounds) {stride : Nat}
    (hstride : ∀ e ∈ eventsOf d.results, stride ≤ e.format.stride) :
    d.pos + (eventsOf d.results).length * stride ≤ d.words.size := by
  have hpos {d : Decoder} (hb : d.InBounds) : d.pos ≤ d.words.size :=
    Nat.le_trans hb.pos_le hb.boardStop_le
  induction d using inductionOn with
  | event d e d' h ih =>
    rw [results_event h, eventsOf_ok] at hstride ⊢
    have hrest := ih (hb.event h) fun e' he' => hstride e' (.tail _ he')
    have hfirst := hstride e List.mem_cons_self
    have hbehind := event_pos h
    rw [(event_keeps h).1] at hrest
    rw [List.length_cons, Nat.succ_mul]
    omega
  | moved d d' h ih =>
    rw [results_moved h] at hstride ⊢
    have hrest := ih (hb.moved h) hstride
    rw [(moved_keeps h).1] at hrest
    exact Nat.le_trans (Nat.add_le_add_right (moved_pos_le h) _) hrest
  | done d h =>
    rw [results_done h, eventsOf_nil, List.length_nil, Nat.zero_mul]
    exact hpos hb
  | failed d e h =>
    rw [results_failed h, eventsOf_error, eventsOf_nil, List.length_nil, Nat.zero_mul]
    exact hpos hb

end Decoder

/-- A readout is its events and the error behind them, if there is one. -/
theorem decode_eq_append (bytes : Bytes) : ∃ fault : Option DecodeError,
    decode bytes = (decodedEvents bytes).map .ok ++ (fault.map .error).toList := by
  unfold decodedEvents
  by_cases h : bytes.length % 4 = 0
  · rw [decode_eq_results h]
    exact Decoder.results_eq_append _
  · rw [decode_misaligned h]
    exact ⟨some (.misaligned bytes.length), rfl⟩

/-- If the decoder does not fail, its events are all there is. -/
theorem decodedEvents_of_ok {bytes : Bytes} {raws : List RawEvent} {fault : Option DecodeError}
    (h : decode bytes = raws.map .ok)
    (hdecode : decode bytes = (decodedEvents bytes).map .ok ++ (fault.map .error).toList) :
    decodedEvents bytes = raws ∧ fault = none := by
  have hevents : decodedEvents bytes = raws := by rw [decodedEvents, h, eventsOf_map_ok]
  refine ⟨hevents, ?_⟩
  rw [h, hevents, List.self_eq_append_right] at hdecode
  cases fault with
  | none => rfl
  | some e => cases hdecode

/-- Events of some stride or more do not share bytes, so there are no more than the readout has room
for. -/
theorem length_decodedEvents_le {bytes : Bytes} {stride : Nat} (hpos : 0 < stride)
    (hstride : ∀ e ∈ decodedEvents bytes, stride ≤ e.format.stride) :
    (decodedEvents bytes).length ≤ bytes.length / (4 * stride) := by
  unfold decodedEvents at hstride ⊢
  by_cases h : bytes.length % 4 = 0
  · rw [decode_eq_results h] at hstride ⊢
    have hroom := (Decoder.inBounds_ofBytes bytes).room hstride
    have hwords : (Decoder.ofBytes bytes).words.size = bytes.length / 4 := Bytes.size_toWords bytes
    rw [← Nat.div_div_eq_div_mul, Nat.le_div_iff_mul_le hpos, ← hwords]
    exact Nat.le_trans (Nat.le_add_left _ _) hroom
  · rw [decode_misaligned h]
    exact Nat.zero_le _

/-! ## What an event has -/

/-- A format word cannot state more samples than its sample field has room for. -/
theorem GroupFormat.samples_le_of_ofWord? {w : UInt32} {f : GroupFormat} (h : ofWord? w = some f) :
    f.samples ≤ maxSamples := by
  obtain ⟨-, rfl⟩ := ofWord?_eq_some_iff.1 h
  have hfield : (stated w).sampleField.toNat < Nat.pow 2 sampleFieldBits :=
    toNat_sampleField_stated w ▸ Word.field_lt w 0 12
  unfold samples sampleWords maxSamples
  split <;> omega

namespace RawEvent

/-- The event has the words that its format asks for, and its format is one that can be stated. -/
structure Proper (e : RawEvent) : Prop where
  length : e.words.length = e.format.stride
  stated : ∃ w, GroupFormat.ofWord? w = some e.format

end RawEvent

/-! ## Decoded events -/

namespace Decoder

/-- The open group, if there is one, has the format of some format word. -/
def Stated (d : Decoder) : Prop :=
  ∀ g, d.group = some g → ∃ w, GroupFormat.ofWord? w = some g.format

theorem Stated.event {d d' : Decoder} {e : RawEvent} (hs : d.Stated) (h : d.step = .event e d') :
    d'.Stated := by
  obtain ⟨g, -, -, -, rfl⟩ := step_event h
  exact hs

theorem Stated.moved {d d' : Decoder} (hs : d.Stated) (h : d.step = .moved d') : d'.Stated := by
  obtain ⟨g, -, -, rfl⟩ | ⟨index, rest, -, -, -, hopen⟩ | ⟨hg, -, -, hopen⟩ := step_moved h
  · exact nofun
  · obtain ⟨-, -, -, -, format, hformat, -, rfl⟩ := openGroup_eq_ok_iff.1 hopen
    intro g hg
    cases hg
    exact ⟨_, hformat⟩
  · obtain ⟨-, -, -, -, rfl⟩ := openBoard_eq_ok_iff.1 hopen
    exact hs

theorem proper_of_event {d d' : Decoder} {e : RawEvent} (hb : d.InBounds) (hs : d.Stated)
    (h : d.step = .event e d') : e.Proper := by
  obtain ⟨g, hg, hlt, rfl, -⟩ := step_event h
  refine ⟨?_, hs g hg⟩
  -- What is left of the group is a multiple of the stride, so it has room for the event.
  obtain ⟨-, hstop, hdvd⟩ := hb.group g hg
  have hfits : g.format.stride ≤ g.stop - d.pos := Nat.le_of_dvd (by omega) hdvd
  have hsize := hb.boardStop_le
  simp only [window, Array.length_toList, Array.size_extract]
  omega

theorem proper_of_results {d : Decoder} (hb : d.InBounds) (hs : d.Stated) {e : RawEvent}
    (he : .ok e ∈ d.results) : e.Proper := by
  induction d using inductionOn with
  | event d e' d' h ih =>
    rw [results_event h] at he
    obtain heq | hrest := List.mem_cons.1 he
    · cases heq
      exact proper_of_event hb hs h
    · exact ih (hb.event h) (hs.event h) hrest
  | moved d d' h ih =>
    rw [results_moved h] at he
    exact ih (hb.moved h) (hs.moved h) he
  | done d h =>
    rw [results_done h] at he
    cases he
  | failed d e' h =>
    rw [results_failed h] at he
    cases List.mem_singleton.1 he

end Decoder

/-- Every decoded event is proper. -/
theorem proper_of_decode {bytes : Bytes} {e : RawEvent} (he : .ok e ∈ decode bytes) : e.Proper := by
  by_cases h : bytes.length % 4 = 0
  · rw [decode_eq_results h] at he
    exact Decoder.proper_of_results (Decoder.inBounds_ofBytes bytes) nofun he
  · rw [decode_misaligned h] at he
    cases List.mem_singleton.1 he

/-! ## Samples -/

/-- Two samples share a word, the earlier one in the low half. -/
theorem Sample.getElem?_unpack (words : List UInt32) (k : Nat) :
    (unpack words)[k]? =
      words[k / 2]?.map fun w => ofHalf (UInt16.ofNat (Word.field w (16 * (k % 2)) 16)) := by
  induction words generalizing k with
  | nil => rfl
  | cons w words ih =>
    have hcons : unpack (w :: words) = ofWord w ++ unpack words := rfl
    rw [hcons]
    match k with
    | 0 => rfl
    | 1 => rfl
    | k + 2 =>
      have hdiv : (k + 2) / 2 = k / 2 + 1 := by omega
      have hmod : (k + 2) % 2 = k % 2 := by omega
      rw [hdiv, hmod, List.getElem?_cons_succ, ← ih]
      rfl

namespace RawEvent

/-- The half word of sample `k`: sample words stand behind the time, two samples to a word. -/
def half (e : RawEvent) (k : Nat) : Nat :=
  Word.field (e.word (1 + k / 2)) (16 * (k % 2)) 16

/-- Sample `k`: a value of twelve bits and a bit for each marker above them. -/
def sample (e : RawEvent) (k : Nat) : Sample where
  value := UInt16.ofNat (e.half k % 4096)
  gate := (e.half k).testBit 12
  trigger := (e.half k).testBit 13
  holdoff := (e.half k).testBit 14
  overthreshold := (e.half k).testBit 15

theorem ofHalf_half (e : RawEvent) (k : Nat) :
    Sample.ofHalf (UInt16.ofNat (e.half k)) = e.sample k := by
  have hlt : e.half k < Nat.pow 2 16 := Word.field_lt _ _ _
  have htoNat : (UInt16.ofNat (e.half k)).toNat = e.half k := by
    rw [UInt16.toNat_ofNat', Nat.mod_eq_of_lt hlt]
  rw [Sample.ofHalf, htoNat]
  rfl

/-- The samples of a proper event are those of its half words, as many as its format says. -/
theorem Proper.samples_eq {e : RawEvent} (h : e.Proper) :
    e.samples = (List.range e.format.samples).map e.sample := by
  have hlength := h.length
  have hstride : 1 + e.format.sampleWords ≤ e.format.stride := by
    rw [GroupFormat.stride]
    omega
  refine List.ext_getElem? fun k => ?_
  rw [samples, Sample.getElem?_unpack, List.getElem?_map]
  by_cases hk : k < e.format.samples
  · have hword : k / 2 < e.format.sampleWords := by
      rw [GroupFormat.samples] at hk
      omega
    have hplace : 1 + k / 2 < e.words.length := by omega
    rw [List.getElem?_take_of_lt hword, List.getElem?_drop, List.getElem?_eq_getElem hplace,
      List.getElem?_range hk, Option.map_some, Option.map_some, ← ofHalf_half, half, word,
      List.getD_eq_getElem?_getD, List.getElem?_eq_getElem hplace, Option.getD_some]
  · have hword : e.format.sampleWords ≤ k / 2 := by
      rw [GroupFormat.samples] at hk
      omega
    rw [List.getElem?_take_eq_none hword, List.getElem?_eq_none (by simpa using hk)]
    rfl

theorem Proper.samples_le {e : RawEvent} (h : e.Proper) :
    e.format.samples ≤ GroupFormat.maxSamples := by
  obtain ⟨w, hw⟩ := h.stated
  exact GroupFormat.samples_le_of_ofWord? hw

end RawEvent

end PulseDaq
