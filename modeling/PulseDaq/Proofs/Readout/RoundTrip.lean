import Mathlib.Data.List.Forall2
import PulseDaq.Proofs.Readout.Acceptance
import PulseDaq.Proofs.Readout.Building
import PulseDaq.Proofs.Readout.Packing

/-!
# Decoding what was built

Board aggregates are board frames, so the decoder reads them back.

* `exists_groupFrame`, `exists_boardFrame`: a group of an aggregate is a group frame, and an
  aggregate built by adding groups is a board frame, as long as their sizes fit their headers.
* `packedEvents`: the events that additions leave in an aggregate, in the order of a readout.
* `decode_toBytes`: decoding a run of built aggregates yields these, each reading back as
  `ReadBack` says, and no error.
-/

namespace PulseDaq

/-! ## Headers -/

/-- A number below the lowest bit of `w` is added by joining it. -/
theorem Word.toNat_or_ofNat {w : UInt32} {k a n : Nat} (hw : w.toNat = Nat.pow 2 k * a)
    (hn : n < Nat.pow 2 k) (hlt : n < 4294967296) : (w ||| UInt32.ofNat n).toNat = w.toNat + n := by
  rw [UInt32.toNat_or, UInt32.toNat_ofNat', Nat.mod_eq_of_lt hlt, hw]
  exact (Nat.two_pow_add_eq_or_of_lt hn a).symm

theorem toNat_groupHeader {n : Nat} (h : n < 0x80000000) :
    (0x80000000 ||| UInt32.ofNat n).toNat = 0x80000000 + n :=
  Word.toNat_or_ofNat (k := 31) (a := 1) rfl h (by omega)

theorem toNat_boardHeader {n : Nat} (h : n < 0x10000000) :
    (0xA0000000 ||| UInt32.ofNat n).toNat = 0xA0000000 + n :=
  Word.toNat_or_ofNat (k := 28) (a := 10) rfl h (by omega)

/-- A format word states its format. -/
theorem stated_toWord {f : GroupFormat} (h : f.sampleField.toNat ≤ 0xFFF) :
    (Word.bit f.toWord 31 = false ∧ Word.bit f.toWord 30 = true ∧ Word.bit f.toWord 29 = true) ∧
      GroupFormat.stated f.toWord = f := by
  obtain ⟨hmarked, hstated⟩ := ofWord?_eq_some_iff.1 (GroupFormat.ofWord?_toWord f)
  refine ⟨hmarked, hstated.symm.trans ?_⟩
  have hfield : UInt16.ofNat (f.sampleField.toNat % Nat.pow 2 GroupFormat.sampleFieldBits) =
      f.sampleField := by
    have hmod : f.sampleField.toNat % 4096 = f.sampleField.toNat := Nat.mod_eq_of_lt (by omega)
    exact (congrArg UInt16.ofNat hmod).trans UInt16.ofNat_toNat
  rw [GroupFormat.ofField, hfield]

/-! ## Groups -/

/-- The windows of events packed one after the other are their words. -/
theorem windows_flatMap_words (es : List SyntheticEvent) (f : GroupFormat) :
    windows f.stride (es.flatMap (·.words f)) = es.map (·.words f) := by
  have hpos : 0 < f.stride := Nat.lt_of_lt_of_le Nat.zero_lt_two f.two_le_stride
  induction es with
  | nil => simp
  | cons e es ih =>
    rw [List.flatMap_cons, windows_append hpos (e.length_words f), ih, List.map_cons]

/-- The events of a group as the decoder finds them. -/
def GroupAggregate.rawEvents (g : GroupAggregate) : List RawEvent :=
  g.events.map fun e => e.raw g.format g.index

theorem exists_groupFrame {g : GroupAggregate} (hsize : g.size < 0x80000000)
    (hfield : g.format.sampleField.toNat ≤ 0xFFF) :
    ∃ f : GroupFrame, f.words = g.words ∧ f.index = g.index ∧ f.events = g.rawEvents := by
  obtain ⟨hmarked, hstated⟩ := stated_toWord hfield
  have hstride : statedStride g.format.toWord = g.format.stride := by
    rw [← stride_stated, hstated]
  have hheader := toNat_groupHeader hsize
  have hlen := g.length_eventWords
  let f : GroupFrame := {
    index := g.index
    header := 0x80000000 ||| UInt32.ofNat g.size
    formatWord := g.format.toWord
    body := g.eventWords
    header_marked := by
      simp only [Word.bit, Word.field, hheader, Nat.pow_eq, Nat.reducePow, beq_iff_eq]
      omega
    header_size := by
      simp only [Word.field, hheader, hlen, Nat.pow_eq, Nat.reducePow]
      rw [GroupAggregate.size, Decoder.headerWords] at hsize ⊢
      omega
    format_marked := hmarked
    stride_dvd := by rw [hstride, hlen]; exact Nat.dvd_mul_left _ _ }
  refine ⟨f, rfl, rfl, ?_⟩
  have hwindows := windows_flatMap_words g.events g.format
  simp only [GroupFrame.events, f, hstride, GroupAggregate.eventWords, hwindows, List.map_map]
  apply List.map_congr_left
  intro e _
  simp only [Function.comp_apply, GroupFrame.event, hstated]
  rfl

theorem exists_groupFrames (gs : List GroupAggregate) (hsize : ∀ g ∈ gs, g.size < 0x80000000)
    (hfield : ∀ g ∈ gs, g.format.sampleField.toNat ≤ 0xFFF) :
    ∃ fs : List GroupFrame, groupsWords fs = gs.flatMap (·.words) ∧
      fs.map (·.index) = gs.map (·.index) ∧
      fs.flatMap (·.events) = gs.flatMap (·.rawEvents) := by
  induction gs with
  | nil => exact ⟨[], rfl, rfl, rfl⟩
  | cons g gs ih =>
    obtain ⟨f, hwords, hindex, hevents⟩ :=
      exists_groupFrame (hsize g List.mem_cons_self) (hfield g List.mem_cons_self)
    obtain ⟨fs, hwords', hindices, hevents'⟩ := ih (fun g' hg' => hsize g' (.tail _ hg'))
      fun g' hg' => hfield g' (.tail _ hg')
    refine ⟨f :: fs, ?_, ?_, ?_⟩
    · rw [groupsWords_cons, hwords, hwords', List.flatMap_cons]
    · rw [List.map_cons, hindex, hindices, List.map_cons]
    · rw [List.flatMap_cons, hevents, hevents', List.flatMap_cons]

/-! ## Boards -/

/-- A selection of groups is what its mask selects. -/
theorem filter_mask (p : Group → Bool) :
    (List.finRange 8).filter p =
      (List.finRange 8).filter fun g =>
        Word.bit (UInt32.ofNat (GroupMask.ofGroups ((List.finRange 8).filter p))) g.val := by
  apply List.filter_congr
  intro g _
  have hmod := Nat.testBit_mod_two_pow (GroupMask.ofGroups ((List.finRange 8).filter p)) 32 g.val
  have hg : g.val < 32 := by omega
  simp only [hg, decide_true, Bool.true_and] at hmod
  rw [Word.bit_eq_testBit, UInt32.toNat_ofNat']
  refine Eq.trans ?_ hmod.symm
  rw [testBit_ofGroups, Bool.eq_iff_iff, List.any_eq_true]
  constructor
  · intro hp
    exact ⟨g, List.mem_filter.2 ⟨List.mem_finRange g, hp⟩, decide_eq_true rfl⟩
  · rintro ⟨g', hg', heq⟩
    rw [← Fin.ext (of_decide_eq_true heq)]
    exact (List.mem_filter.1 hg').2

theorem map_index_lastGroups (calls : List GroupCall) :
    (BoardAggregate.lastGroups calls).map (·.index) =
      (List.finRange 8).filter fun g => (lastCall? calls g).isSome := by
  rw [BoardAggregate.lastGroups, List.map_filterMap, ← List.filterMap_eq_filter]
  apply List.filterMap_congr
  intro g _
  cases h : lastCall? calls g with
  | none => simp [Option.guard, h]
  | some c => simp [Option.guard, h, index_aggregate h]

theorem mem_lastGroups {calls : List GroupCall} {g : GroupAggregate}
    (h : g ∈ BoardAggregate.lastGroups calls) : ∃ c ∈ calls, g = c.aggregate := by
  obtain ⟨i, -, hi⟩ := List.mem_filterMap.1 h
  obtain ⟨c, hc, rfl⟩ := Option.map_eq_some_iff.1 hi
  exact ⟨c, (index_of_lastCall? hc).1, rfl⟩

/-- A group is not larger than the groups of its board together. -/
theorem size_le_groupWords {a : BoardAggregate} {g : GroupAggregate} (h : g ∈ a.groups) :
    g.size ≤ a.groupWords.length := by
  obtain ⟨before, behind, hsplit⟩ := List.append_of_mem h
  rw [BoardAggregate.groupWords, hsplit, List.flatMap_append, List.flatMap_cons, List.length_append,
    List.length_append, g.length_words]
  omega

/-- The events that additions leave in an aggregate: in ascending order of the groups, and for each
group the events of the last addition under its index. -/
def packedEvents (calls : List GroupCall) : List PackedEvent :=
  (List.finRange 8).flatMap fun g =>
    match lastCall? calls g with
    | none => []
    | some c => c.events.map fun e => ⟨g, c.format, e⟩

theorem flatMap_rawEvents_lastGroups (calls : List GroupCall) :
    (BoardAggregate.lastGroups calls).flatMap (·.rawEvents) =
      (packedEvents calls).map PackedEvent.raw := by
  rw [BoardAggregate.lastGroups, packedEvents, List.map_flatMap]
  induction List.finRange 8 with
  | nil => rfl
  | cons g l ih =>
    cases h : lastCall? calls g with
    | none =>
      rw [List.filterMap_cons_none (by rw [h]; rfl), ih, List.flatMap_cons, h]
      rfl
    | some c =>
      rw [List.filterMap_cons_some (by rw [h]; rfl), List.flatMap_cons, ih, List.flatMap_cons, h,
        GroupAggregate.rawEvents, index_aggregate h]
      simp only [List.map_map]
      rfl

/-- The additions are to groups from 0 to 7, and their sample fields have twelve bits. -/
def ProperCalls (calls : List GroupCall) : Prop :=
  ∀ c ∈ calls, c.index.toNat < 8 ∧ c.format.sampleField.toNat ≤ 0xFFF

instance (calls : List GroupCall) : Decidable (ProperCalls calls) :=
  inferInstanceAs (Decidable (∀ c ∈ calls, _))

theorem exists_boardFrame {calls : List GroupCall} (hproper : ProperCalls calls)
    (hsize : (BoardAggregate.ofCalls calls).words.length < 0x10000000) :
    ∃ b : BoardFrame, b.words = (BoardAggregate.ofCalls calls).words ∧
      b.events = (packedEvents calls).map PackedEvent.raw := by
  have hgroups := BoardAggregate.groups_ofCalls fun c hc => (hproper c hc).1
  generalize BoardAggregate.ofCalls calls = a at hgroups hsize ⊢
  have hlen : a.words.length = a.size := by
    simp only [BoardAggregate.words, BoardAggregate.size, List.length_cons, Decoder.headerWords]
    omega
  have hheader := toNat_boardHeader (hlen ▸ hsize)
  obtain ⟨fs, hwords, hindices, hevents⟩ := exists_groupFrames a.groups
    (fun g hg => by
      have hle := size_le_groupWords hg
      rw [hlen, BoardAggregate.size] at hsize
      omega)
    (fun g hg => by
      obtain ⟨c, hc, rfl⟩ := mem_lastGroups (hgroups ▸ hg)
      exact (hproper c hc).2)
  have hindex : a.groups.map (·.index) =
      (List.finRange 8).filter fun g => (lastCall? calls g).isSome := by
    rw [hgroups, map_index_lastGroups]
  let b : BoardFrame := {
    header := 0xA0000000 ||| UInt32.ofNat a.size
    maskWord := UInt32.ofNat a.mask
    groups := fs
    header_magic := by
      simp only [Word.field, hheader, Nat.pow_eq, Nat.reducePow]
      omega
    header_size := by
      rw [hwords]
      simp only [Word.field, hheader, Nat.pow_eq, Nat.reducePow]
      simp only [BoardAggregate.size, BoardAggregate.groupWords, Decoder.headerWords] at hlen ⊢
      omega
    groups_masked := by
      rw [hindices, BoardAggregate.mask, hindex]
      exact filter_mask _ }
  refine ⟨b, ?_, ?_⟩
  · simp only [BoardFrame.words, b, hwords]
    rfl
  · rw [BoardFrame.events, hevents, hgroups, flatMap_rawEvents_lastGroups]

theorem exists_boardFrames {boards : List (List GroupCall)}
    (hproper : ∀ calls ∈ boards, ProperCalls calls)
    (hsize : ∀ calls ∈ boards, (BoardAggregate.ofCalls calls).words.length < 0x10000000) :
    ∃ bs : List BoardFrame,
      boardsWords bs = boards.flatMap (fun calls => (BoardAggregate.ofCalls calls).words) ∧
      boardsEvents bs = (boards.flatMap packedEvents).map PackedEvent.raw := by
  induction boards with
  | nil => exact ⟨[], rfl, rfl⟩
  | cons calls boards ih =>
    obtain ⟨b, hwords, hevents⟩ :=
      exists_boardFrame (hproper calls List.mem_cons_self) (hsize calls List.mem_cons_self)
    obtain ⟨bs, hwords', hevents'⟩ := ih (fun c hc => hproper c (.tail _ hc))
      fun c hc => hsize c (.tail _ hc)
    refine ⟨b :: bs, ?_, ?_⟩
    · rw [boardsWords_cons, hwords, hwords', List.flatMap_cons]
    · rw [boardsEvents, List.flatMap_cons, hevents, ← boardsEvents, hevents', List.flatMap_cons,
        List.map_append]

/-- The bytes of aggregates are those of their words. -/
theorem flatMap_toBytes (boards : List (List GroupCall)) :
    (boards.flatMap fun calls => (BoardAggregate.ofCalls calls).toBytes) =
      Bytes.ofWords (boards.flatMap fun calls => (BoardAggregate.ofCalls calls).words) := by
  induction boards with
  | nil => rfl
  | cons calls boards ih =>
    rw [List.flatMap_cons, List.flatMap_cons, Bytes.ofWords_append, ih]
    rfl

/-- What one built aggregate is decoded into. -/
theorem decode_ofCalls {calls : List GroupCall} (hproper : ProperCalls calls)
    (hsize : (BoardAggregate.ofCalls calls).words.length < 0x10000000) :
    decode (BoardAggregate.ofCalls calls).toBytes =
      ((packedEvents calls).map PackedEvent.raw).map .ok := by
  obtain ⟨b, hwords, hevents⟩ := exists_boardFrame hproper hsize
  have hboards : boardsWords [b] = (BoardAggregate.ofCalls calls).words := by
    rw [← hwords]
    exact List.append_nil _
  have hraws : boardsEvents [b] = (packedEvents calls).map PackedEvent.raw := by
    rw [← hevents]
    exact List.append_nil _
  rw [BoardAggregate.toBytes, ← hboards, ← hraws]
  refine decode_of_boards ?_ ?_
  · rw [Bytes.length_ofWords, Nat.mul_mod_right]
  · rw [Bytes.toWords_ofWords]

/-- **Round trip.** Built aggregates, one behind the other, are decoded without an error into the
events that were added last under each index, board by board and in ascending order of the groups,
and each of them reads back. -/
theorem decode_toBytes (boards : List (List GroupCall))
    (hproper : ∀ calls ∈ boards, ProperCalls calls)
    (hsize : ∀ calls ∈ boards, (BoardAggregate.ofCalls calls).words.length < 0x10000000) :
    ∃ raws : List RawEvent,
      decode (boards.flatMap fun calls => (BoardAggregate.ofCalls calls).toBytes) = raws.map .ok ∧
      List.Forall₂ ReadBack (boards.flatMap packedEvents) raws := by
  obtain ⟨bs, hwords, hevents⟩ := exists_boardFrames hproper hsize
  refine ⟨(boards.flatMap packedEvents).map PackedEvent.raw, ?_, ?_⟩
  · rw [flatMap_toBytes, ← hwords, ← hevents]
    refine decode_of_boards ?_ ?_
    · rw [Bytes.length_ofWords, Nat.mul_mod_right]
    · rw [Bytes.toWords_ofWords]
  · rw [List.forall₂_map_right_iff, List.forall₂_same]
    exact fun p _ => readBack_raw p

/-- Group 3 before group 1 and then again, with samples that do not fit, and a board of its own for
an event without extras. -/
def mixedCalls : List (List GroupCall) :=
  let long : SyntheticEvent := { time := 5, samples := [⟨0xFFFF, true, false, false, true⟩] }
  let late : SyntheticEvent := { time := 9, extension := 1, baseline := 2, channel := 0x13 }
  [[⟨3, ⟨true, true, 1⟩, [late, late]⟩, ⟨1, ⟨false, true, 1⟩, [long]⟩,
      ⟨3, ⟨true, false, 0⟩, [late]⟩],
    [⟨7, ⟨false, false, 0xFFF⟩, [late]⟩]]

theorem decode_mixedCalls :
    (∀ calls ∈ mixedCalls, ProperCalls calls) ∧
    (∀ calls ∈ mixedCalls, (BoardAggregate.ofCalls calls).words.length < 0x10000000) ∧
    ∃ raws : List RawEvent,
      decode (mixedCalls.flatMap fun calls => (BoardAggregate.ofCalls calls).toBytes) =
        raws.map .ok ∧
      List.Forall₂ ReadBack
        [⟨1, ⟨false, true, 1⟩, { time := 5, samples := [⟨0xFFFF, true, false, false, true⟩] }⟩,
          ⟨3, ⟨true, false, 0⟩, { time := 9, extension := 1, baseline := 2, channel := 0x13 }⟩,
          ⟨7, ⟨false, false, 0xFFF⟩, { time := 9, extension := 1, baseline := 2, channel := 0x13 }⟩]
        raws :=
  have hproper : ∀ calls ∈ mixedCalls, ProperCalls calls := by decide
  have hsize : ∀ calls ∈ mixedCalls,
      (BoardAggregate.ofCalls calls).words.length < 0x10000000 := by decide
  ⟨hproper, hsize, decode_toBytes mixedCalls hproper hsize⟩

end PulseDaq
