import PulseDaq.Proofs.Board.Drawing
import PulseDaq.Proofs.Readout.RoundTrip
import PulseDaq.Proofs.Session.Equipment

/-!
# What simulated boards make up

A simulated board draws its events at random, but not how many there are, nor their format.

* `Makes.decode`: the aggregate of a read is decoded into as many events of the board's format as
  the settings say.
* `SimulatedBoard.contract`: a board that breaks nothing reads such aggregates, and answers the
  values of its registers.
-/

namespace PulseDaq

theorem length_flatMap_of_forall {α β : Type} {f : α → List β} {l : List α} {n : Nat}
    (h : ∀ a ∈ l, (f a).length = n) : (l.flatMap f).length = l.length * n := by
  rw [List.length_flatMap, List.map_congr_left h, List.map_const', List.sum_replicate_nat]

namespace SimulatedBoard

/-- The same settings and the same values. -/
def Alike (b b' : SimulatedBoard) : Prop :=
  b'.simulation = b.simulation ∧ b'.registers = b.registers

theorem Alike.refl (b : SimulatedBoard) : Alike b b :=
  ⟨rfl, rfl⟩

theorem Alike.trans {a b c : SimulatedBoard} (h : Alike a b) (h' : Alike b c) : Alike a c :=
  ⟨h'.1.trans h.1, h'.2.trans h.2⟩

theorem Alike.register {b b' : SimulatedBoard} (h : Alike b b') : b'.register = b.register := by
  funext f index
  rw [SimulatedBoard.register, h.2, SimulatedBoard.register]

theorem Alike.format {b b' : SimulatedBoard} (h : Alike b b') : b'.format = b.format := by
  rw [SimulatedBoard.format, h.register, SimulatedBoard.format]

theorem Beside.alike {b b' : SimulatedBoard} (h : Beside b b') : Alike b b' := by
  obtain ⟨_, _, rfl⟩ := h
  exact ⟨rfl, rfl⟩

/-! ## What a read is decoded into -/

namespace Makes

variable {b : SimulatedBoard} {calls : List GroupCall}

theorem sampleField_le (b : SimulatedBoard) : b.format.sampleField.toNat ≤ 0xFFF :=
  GroupFormat.sampleField_withSamples_le _ _

theorem mem_index (h : Makes b calls) {i : UInt8} :
    (∃ c ∈ calls, c.index = i) ↔ ∃ g ∈ b.enabled, UInt8.ofNat g.val = i := by
  rw [← List.mem_map, h.indices, List.mem_map]

theorem toNat_ofGroup (g : Group) : (UInt8.ofNat g.val).toNat = g.val := by
  rw [UInt8.toNat_ofNat', Nat.mod_eq_of_lt (by omega)]

theorem properCalls (h : Makes b calls) : ProperCalls calls := by
  intro c hc
  obtain ⟨g, -, hg⟩ := h.mem_index.1 ⟨c, hc, rfl⟩
  rw [← hg, toNat_ofGroup, (h.each c hc).1]
  exact ⟨g.isLt, sampleField_le b⟩

/-- A group has been added exactly if it takes part. -/
theorem isSome_lastCall? (h : Makes b calls) (g : Group) :
    (lastCall? calls g).isSome = true ↔ g ∈ b.enabled := by
  constructor
  · intro hsome
    obtain ⟨c, hc⟩ := Option.isSome_iff_exists.1 hsome
    obtain ⟨hmem, hindex⟩ := index_of_lastCall? hc
    obtain ⟨g', hg', heq⟩ := h.mem_index.1 ⟨c, hmem, rfl⟩
    rw [← heq, toNat_ofGroup] at hindex
    exact Fin.ext hindex ▸ hg'
  · intro hg
    obtain ⟨c, hc, hindex⟩ := h.mem_index.2 ⟨g, hg, rfl⟩
    have hmem : c ∈ calls.filter fun c => c.index.toNat = g.val := by
      rw [List.mem_filter, hindex, toNat_ofGroup]
      exact ⟨hc, decide_eq_true rfl⟩
    exact List.getLast?_isSome.2 (List.ne_nil_of_mem hmem)

/-- The aggregate has the groups that take part. -/
theorem length_groups (h : Makes b calls) :
    (BoardAggregate.ofCalls calls).groups.length = b.enabled.length := by
  rw [BoardAggregate.groups_ofCalls fun c hc => (h.properCalls c hc).1,
    ← List.length_map GroupAggregate.index, map_index_lastGroups, enabled, GroupMask.groups]
  congr 1
  apply List.filter_congr
  intro g _
  rw [Bool.eq_iff_iff, h.isSome_lastCall?, enabled, GroupMask.mem_groups]

/-- Every group of the aggregate has as many events as the settings say, in the board's format. -/
theorem group (h : Makes b calls) {g : GroupAggregate}
    (hg : g ∈ (BoardAggregate.ofCalls calls).groups) :
    g.format = b.format ∧ g.events.length = b.simulation.eventsPerGroup.toNat := by
  rw [BoardAggregate.groups_ofCalls fun c hc => (h.properCalls c hc).1] at hg
  obtain ⟨c, hc, rfl⟩ := mem_lastGroups hg
  exact h.each c hc

end Makes

/-- The words of a read. -/
def readWords (b : SimulatedBoard) : Nat :=
  Decoder.headerWords +
    b.enabled.length * (Decoder.headerWords + b.simulation.eventsPerGroup.toNat * b.format.stride)

namespace Makes

variable {b : SimulatedBoard} {calls : List GroupCall}

theorem length_words (h : Makes b calls) :
    (BoardAggregate.ofCalls calls).words.length = b.readWords := by
  have hgroups : (BoardAggregate.ofCalls calls).groupWords.length = b.enabled.length *
      (Decoder.headerWords + b.simulation.eventsPerGroup.toNat * b.format.stride) := by
    rw [← h.length_groups]
    refine length_flatMap_of_forall fun g hg => ?_
    obtain ⟨hformat, hevents⟩ := h.group hg
    rw [g.length_words, GroupAggregate.size, hformat, hevents]
  rw [BoardAggregate.words, List.length_cons, List.length_cons, hgroups, readWords]
  simp only [Decoder.headerWords]
  omega

theorem length_toBytes (h : Makes b calls) :
    (BoardAggregate.ofCalls calls).toBytes.length = 4 * b.readWords := by
  rw [BoardAggregate.toBytes, Bytes.length_ofWords, h.length_words]

theorem toBytes_ne_nil (h : Makes b calls) : (BoardAggregate.ofCalls calls).toBytes ≠ [] := by
  refine List.ne_nil_of_length_pos ?_
  rw [h.length_toBytes, readWords, Decoder.headerWords]
  omega

/-- The read is decoded into as many events as the settings say for every group that takes part, all
of them with the samples of the board's format. -/
theorem decode (h : Makes b calls) (hsize : b.readWords < 0x10000000) :
    ∃ raws : List RawEvent,
      PulseDaq.decode (BoardAggregate.ofCalls calls).toBytes = raws.map .ok ∧
      raws.length = b.simulation.eventsPerGroup.toNat * b.enabled.length ∧
      ∀ raw ∈ raws, raw.samples.length = b.format.samples := by
  have hraws := flatMap_rawEvents_lastGroups calls
  rw [← BoardAggregate.groups_ofCalls fun c hc => (h.properCalls c hc).1] at hraws
  refine ⟨(packedEvents calls).map PackedEvent.raw,
    decode_ofCalls h.properCalls (by rw [h.length_words]; exact hsize), ?_, ?_⟩
  · rw [← hraws, Nat.mul_comm, ← h.length_groups]
    refine length_flatMap_of_forall fun g hg => ?_
    rw [GroupAggregate.rawEvents, List.length_map, (h.group hg).2]
  · rw [← hraws]
    intro raw hraw
    obtain ⟨g, hg, hraw⟩ := List.mem_flatMap.1 hraw
    obtain ⟨e, -, rfl⟩ := List.mem_map.1 hraw
    rw [← (h.group hg).1]
    exact (readBack_raw ⟨g.index, g.format, e⟩).length_samples

end Makes

/-! ## What is known of a simulated board -/

/-- All but the status is answered from the registers. -/
def Answers (b : SimulatedBoard) (f : FunctionId) (index : Option UInt32) (v : UInt32) : Prop :=
  f ≠ .acquisitionStatus → v = b.register f index

/-- A readout buffer of the size that the settings say. -/
def Sized (b : SimulatedBoard) (buffer : ReadoutBuffer) : Prop :=
  buffer.capacity = b.simulation.readoutBytes

/-- What a read leaves: nothing, or an aggregate that is no larger than the buffer. -/
def Reads (b : SimulatedBoard) (buffer : ReadoutBuffer) : Prop :=
  b.Sized buffer ∧ (buffer.bytes = [] ∨ ∃ calls, Makes b calls ∧
    buffer.bytes = (BoardAggregate.ofCalls calls).toBytes ∧
    buffer.bytes.length ≤ b.simulation.readoutBytes)

theorem Alike.makes {b b' : SimulatedBoard} (h : Alike b b') {calls : List GroupCall}
    (hm : Makes b' calls) : Makes b calls where
  indices := by rw [hm.indices, enabled, h.register, enabled]
  each c hc := by
    obtain ⟨hformat, hevents⟩ := hm.each c hc
    exact ⟨hformat.trans h.format, by rw [hevents, h.1]⟩

section Contract

variable {b₀ : SimulatedBoard}

/-- The link counts its failures, and touches nothing else. -/
theorem link_keeps {P : SimulatedBoard → Prop}
    (hP : ∀ b failuresLeft monitor, P b → P { b with failuresLeft, monitor }) :
    Preserves P link := by
  refine Triple.bind_get fun b hb => .ite (fun _ s _ => hP b _ _ hb) fun _ => .pure _ ?_
  rintro s rfl
  exact hb

/-- A read that breaks nothing is empty or the aggregate of some calls. -/
theorem readout_cases (b : SimulatedBoard) (n : UInt32)
    (hcorrupt : b.simulation.corruptEvery = 0) :
    ((readout n b).1 = [] ∨ ∃ calls, Makes b calls ∧
      (readout n b).1 = (BoardAggregate.ofCalls calls).toBytes) ∧ Alike b (readout n b).2 := by
  have hdue : isDue n b.simulation.corruptEvery = false := by simp [isDue, hcorrupt]
  obtain ⟨⟨calls, hmakes, -, hmade⟩, hbeside⟩ := aggregate_makes b
  rw [readout_eq, hdue]
  split
  · exact ⟨.inl rfl, .refl b⟩
  · exact ⟨.inr ⟨calls, hmakes, congrArg BoardAggregate.toBytes hmade⟩, hbeside.alike⟩

/-- What a read leaves in the buffer that it was given. -/
theorem readInto_triple (hcorrupt : b₀.simulation.corruptEvery = 0) :
    Triple (fun s : SimulatedBoard × ReadoutBuffer => Alike b₀ s.1 ∧ b₀.Sized s.2) readInto
      (fun _ s => Alike b₀ s.1 ∧ b₀.Reads s.2) fun _ s => Alike b₀ s.1 ∧ b₀.Sized s.2 := by
  rintro ⟨b, buffer⟩ ⟨hb, hsized⟩
  have hlink := link_keeps (P := Alike b₀) (fun _ _ _ h => h) b hb
  unfold readInto
  cases h : link b with
  | error e b₁ =>
    rw [h] at hlink
    simp only [h]
    exact ⟨hlink, hsized⟩
  | ok _ b₁ =>
    rw [h] at hlink
    simp only [h]
    generalize hb₂ : { b₁ with
      monitor := { b₁.monitor with reads := b₁.monitor.reads + 1 }
      elapsed := b₁.elapsed + b₁.simulation.readDelay } = b₂
    have halike : Alike b₀ b₂ := hb₂ ▸ hlink
    have hread := readout_cases b₂ (b₁.monitor.reads + 1) (halike.1.symm ▸ hcorrupt)
    cases hmade : readout (b₁.monitor.reads + 1) b₂ with
    | mk bytes b₃ =>
      rw [hmade] at hread
      obtain ⟨hbytes, halike'⟩ := hread
      dsimp only [ReadoutBuffer.fill]
      by_cases hover : buffer.capacity < bytes.length
      · rw [if_pos hover]
        exact ⟨halike.trans halike', hsized⟩
      · rw [if_neg hover]
        refine ⟨halike.trans halike', hsized, hbytes.imp_right ?_⟩
        rintro ⟨calls, hmakes, hmade⟩
        exact ⟨calls, halike.makes hmakes, hmade, hsized ▸ Nat.le_of_not_lt hover⟩

/-- A board that breaks nothing answers its values and reads what it is said to read. -/
theorem contract (hcorrupt : b₀.simulation.corruptEvery = 0) :
    BoardContract SimulatedBoard (Alike b₀) b₀.Answers b₀.Sized b₀.Reads where
  get f i := by
    refine Triple.bind (Preserves.ofExcept _) fun _ => .bind (link_keeps fun _ _ _ h => h) ?_
    refine fun _ => .bind_get fun b hb => .ite (fun hf _ _ => ⟨fun h => absurd hf h, hb⟩) ?_
    exact fun _ => .pure _ fun s hs => ⟨fun _ => by rw [hb.register], hs ▸ hb⟩
  allocate := .bind_get fun b hb => .pure _ fun _ h => ⟨by rw [Sized, hb.1], h ▸ hb⟩
  read := readInto_triple hcorrupt
  fresh _ h := h.1
  free _ := .modify fun _ h => h
  start := .modify fun _ h => h
  stop := .modify fun _ h => h

end Contract

end SimulatedBoard

end PulseDaq
