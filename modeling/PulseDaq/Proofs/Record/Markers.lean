import Mathlib.Order.Bounds.Basic
import PulseDaq.Proofs.Readout.Acceptance
import PulseDaq.Proofs.Readout.Events
import PulseDaq.Record.Event

/-!
# Where the markers of a waveform are

One pass over the samples of a waveform keeps its values and finds, for each marker, the first and
the last sample that has it.

* `LastOf`, `Interval.Spans`: the last of the marked positions so far, and the first and the last of
  them. A mark at the next position is taken in by `LastOf.next` and `Interval.Spans.next`.
* `Markers.Describes`: what the pass knows of the samples so far. One sample keeps it
  (`Markers.Describes.observe`), and so does a run of them (`Markers.Describes.scan`).
* `WaveformEvent.ofRaw_decoded`: the main result.
-/

namespace PulseDaq

theorem toNat_position {k : Nat} (h : k < unset.toNat) : (UInt16.ofNat k).toNat = k := by
  rw [UInt16.toNat_ofNat', Nat.mod_eq_of_lt (h.trans unset.toNat_lt)]

/-- A position is told from an unset one as long as there are not too many of them. -/
theorem position_ne_unset {k : Nat} (h : k < unset.toNat) : UInt16.ofNat k ≠ unset := by
  intro heq
  have htoNat := toNat_position h
  rw [heq] at htoNat
  exact h.ne' htoNat

/-! ## First and last -/

/-- The marked positions in front of `n`. -/
def positions (marked : Nat → Bool) (n : Nat) : Set Nat :=
  {k | k < n ∧ marked k = true}

section Positions

variable {marked : Nat → Bool} {n : Nat}

theorem positions_zero (marked : Nat → Bool) : positions marked 0 = ∅ :=
  Set.eq_empty_of_forall_notMem fun _ h => Nat.not_lt_zero _ h.1

theorem positions_of_not (h : marked n = false) :
    positions marked (n + 1) = positions marked n := by
  refine Set.ext fun k => ⟨fun hk => ⟨?_, hk.2⟩, fun hk => ⟨hk.1.trans n.lt_succ_self, hk.2⟩⟩
  refine Nat.lt_of_le_of_ne (Nat.le_of_lt_succ hk.1) ?_
  rintro rfl
  cases h.symm.trans hk.2

theorem isGreatest_positions (h : marked n = true) : IsGreatest (positions marked (n + 1)) n :=
  ⟨⟨n.lt_succ_self, h⟩, fun _ hk => Nat.le_of_lt_succ hk.1⟩

/-- If there was no mark before, a mark is the first. -/
theorem isLeast_positions_of_empty (h : marked n = true) (hempty : positions marked n = ∅) :
    IsLeast (positions marked (n + 1)) n := by
  refine ⟨⟨n.lt_succ_self, h⟩, fun k hk => Nat.le_of_not_lt fun hlt => ?_⟩
  exact Set.notMem_empty k (hempty ▸ ⟨hlt, hk.2⟩)

/-- The first mark stays the first. -/
theorem isLeast_positions_succ {first : Nat} (h : IsLeast (positions marked n) first) :
    IsLeast (positions marked (n + 1)) first := by
  refine ⟨⟨h.1.1.trans n.lt_succ_self, h.1.2⟩, fun k hk => ?_⟩
  rcases Nat.lt_succ_iff_lt_or_eq.1 hk.1 with hlt | rfl
  · exact h.2 ⟨hlt, hk.2⟩
  · exact h.1.1.le

/-- The last of the marked positions in front of `n`, unset if there is none. -/
def LastOf (marked : Nat → Bool) (n : Nat) (position : UInt16) : Prop :=
  (positions marked n = ∅ ∧ position = unset) ∨ IsGreatest (positions marked n) position.toNat

/-- The first and the last of the marked positions in front of `n`, unset if there are none. -/
def Interval.Spans (marked : Nat → Bool) (n : Nat) (i : Interval) : Prop :=
  (positions marked n = ∅ ∧ i = ⟨unset, unset⟩) ∨
    (IsLeast (positions marked n) i.start.toNat ∧ IsGreatest (positions marked n) i.stop.toNat)

theorem LastOf.next {position : UInt16} (h : LastOf marked n position) (hn : n < unset.toNat) :
    LastOf marked (n + 1) (if marked n then UInt16.ofNat n else position) := by
  cases hmark : marked n with
  | true => exact .inr ((toNat_position hn).symm ▸ isGreatest_positions hmark)
  | false =>
    rw [LastOf, positions_of_not hmark]
    exact h

namespace Interval

theorem Spans.next {i : Interval} (h : i.Spans marked n) (hn : n < unset.toNat) :
    (if marked n then i.observe (UInt16.ofNat n) else i).Spans marked (n + 1) := by
  cases hmark : marked n with
  | false =>
    rw [Spans, positions_of_not hmark]
    exact h
  | true =>
    have hlast : IsGreatest (positions marked (n + 1)) (UInt16.ofNat n).toNat :=
      (toNat_position hn).symm ▸ isGreatest_positions hmark
    refine .inr ⟨?_, hlast⟩
    obtain ⟨hempty, rfl⟩ | ⟨hfirst, -⟩ := h
    · have hstart : IsLeast (positions marked (n + 1)) (UInt16.ofNat n).toNat :=
        (toNat_position hn).symm ▸ isLeast_positions_of_empty hmark hempty
      exact hstart
    -- A first mark is in front of `n`, so it is not taken for an unset one.
    · have hset : i.start ≠ unset := by
        intro hunset
        have hlt := hfirst.1.1.trans hn
        rw [hunset] at hlt
        exact hlt.false
      have hstart : (i.observe (UInt16.ofNat n)).start = i.start := if_neg hset
      rw [if_pos rfl, hstart]
      exact isLeast_positions_succ hfirst

end Interval

end Positions

/-! ## The pass -/

namespace Markers

/-- What has been found of the markers of the samples in front of `n`. -/
structure Describes (sample : Nat → Sample) (n : Nat) (m : Markers) : Prop where
  trigger : LastOf (fun k => (sample k).trigger) n m.trigger
  gate : m.gate.Spans (fun k => (sample k).gate) n
  holdoff : m.holdoff.Spans (fun k => (sample k).holdoff) n
  overthreshold : m.overthreshold.Spans (fun k => (sample k).overthreshold) n

variable {sample : Nat → Sample} {n : Nat} {m : Markers}

theorem describes_nothing (sample : Nat → Sample) : Describes sample 0 {} where
  trigger := .inl ⟨positions_zero _, rfl⟩
  gate := .inl ⟨positions_zero _, rfl⟩
  holdoff := .inl ⟨positions_zero _, rfl⟩
  overthreshold := .inl ⟨positions_zero _, rfl⟩

theorem Describes.observe (h : m.Describes sample n) (hn : n < unset.toNat) :
    (m.observe (UInt16.ofNat n) (sample n)).Describes sample (n + 1) where
  trigger := h.trigger.next hn
  gate := h.gate.next hn
  holdoff := h.holdoff.next hn
  overthreshold := h.overthreshold.next hn

theorem Describes.scan (h : m.Describes sample n) {count : Nat} (hcount : n + count ≤ unset.toNat) :
    (m.scan n ((List.range' n count).map sample)).Describes sample (n + count) := by
  induction count generalizing n m with
  | zero => exact h
  | succ count ih =>
    have hrest := ih (h.observe (by omega)) (n := n + 1) (by omega)
    rw [Nat.add_assoc, Nat.add_comm 1] at hrest
    exact hrest

end Markers

/-! ## Main result -/

/-- **Waveforms.** The waveform of a decoded event has as many samples as its format says, each with
the twelve bits of its value, and with each marker the first and the last sample that has it, or
only the last for the trigger. There are so few samples that all their positions differ from an
unset one, and the record of the waveform has the size that its format asks for. -/
theorem WaveformEvent.ofRaw_decoded {bytes : Bytes} {raw : RawEvent} (h : .ok raw ∈ decode bytes) :
    let e := WaveformEvent.ofRaw raw
    let n := raw.format.samples
    e.samples = (List.range n).map (fun k => UInt16.ofNat (raw.half k % 4096)) ∧
      e.samples.length = n ∧
      LastOf (fun k => (raw.half k).testBit 13) n e.trigger ∧
      e.gate.Spans (fun k => (raw.half k).testBit 12) n ∧
      e.holdoff.Spans (fun k => (raw.half k).testBit 14) n ∧
      e.overthreshold.Spans (fun k => (raw.half k).testBit 15) n ∧
      (∀ k < n, (UInt16.ofNat k).toNat = k ∧ UInt16.ofNat k ≠ unset) ∧
      (Event.waveform e).elementSize = RecordKind.waveform.elementSize n := by
  intro e n
  have hproper := proper_of_decode h
  have hfew : n < unset.toNat := Nat.lt_of_le_of_lt hproper.samples_le (by decide)
  have hsamples : e.samples = (List.range n).map (fun k => UInt16.ofNat (raw.half k % 4096)) := by
    show raw.samples.map (·.value) = _
    rw [hproper.samples_eq, List.map_map]
    rfl
  have hlength : e.samples.length = n := by rw [hsamples, List.length_map, List.length_range]
  have hscan : (Markers.scan {} 0 raw.samples).Describes raw.sample n := by
    have hfound : (Markers.scan {} 0 ((List.range' 0 n).map raw.sample)).Describes raw.sample
        (0 + n) :=
      (Markers.describes_nothing raw.sample).scan (by omega)
    rwa [Nat.zero_add, ← List.range_eq_range', ← hproper.samples_eq] at hfound
  refine ⟨hsamples, hlength, hscan.trigger, hscan.gate, hscan.holdoff, hscan.overthreshold, ?_, ?_⟩
  · intro k hk
    exact ⟨toNat_position (hk.trans hfew), position_ne_unset (hk.trans hfew)⟩
  · exact congrArg RecordKind.waveform.elementSize hlength

/-- A board with one waveform in group 4. -/
def oneWaveform : BoardFrame where
  header := 0xA000000A
  maskWord := 16
  groups := [
    { index := ⟨4, by decide⟩
      header := 0x80000008
      formatWord := 0x68000001
      body := [5, 0x10010ABC, 0x10002000, 0x0000AFFF, 0, 0x30000064]
      header_marked := by decide
      header_size := by decide
      format_marked := by decide
      stride_dvd := by decide }]
  header_magic := by decide
  header_size := by decide
  groups_masked := by decide

/-- Of eight samples, the gate is at 1 and 3, the trigger at 2 and 4, and the last of these is over
the threshold. -/
theorem WaveformEvent.ofRaw_oneWaveform :
    let raw : RawEvent :=
      ⟨4, ⟨false, true, 1⟩, [5, 0x10010ABC, 0x10002000, 0x0000AFFF, 0, 0x30000064]⟩
    .ok raw ∈ decode (Bytes.ofWords oneWaveform.words) ∧
      (WaveformEvent.ofRaw raw).samples.length = 8 ∧
      LastOf (fun k => (raw.half k).testBit 13) 8 4 ∧
      Interval.Spans (fun k => (raw.half k).testBit 12) 8 ⟨1, 3⟩ ∧
      Interval.Spans (fun k => (raw.half k).testBit 14) 8 ⟨unset, unset⟩ ∧
      Interval.Spans (fun k => (raw.half k).testBit 15) 8 ⟨4, 4⟩ := by
  intro raw
  have hwords : (Bytes.toWords (Bytes.ofWords oneWaveform.words)).toList =
      boardsWords [oneWaveform] := by
    rw [Bytes.toWords_ofWords]
    rfl
  have h : .ok raw ∈ decode (Bytes.ofWords oneWaveform.words) := by
    rw [decode_of_boards (by decide) hwords]
    exact List.mem_map_of_mem (List.mem_singleton.2 rfl)
  obtain ⟨-, hlength, htrigger, hgate, hholdoff, hover, -, -⟩ := ofRaw_decoded h
  exact ⟨h, hlength, htrigger, hgate, hholdoff, hover⟩

end PulseDaq
