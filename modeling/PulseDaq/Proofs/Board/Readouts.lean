import PulseDaq.Proofs.Board.Corruption
import PulseDaq.Proofs.Board.History
import PulseDaq.Proofs.Board.Simulated

/-!
# What is read from a simulated board

After any calls of a simulated board, and whatever it draws, its registers and the number of the
read say what a read comes to: nothing, events that the decoder gets back, or one error.

* `Makes.groups_ofCalls`: the groups of a read are in the order in which they are drawn.
* `SimulatedBoard.ReadOf`: what the events of a read have in common. `Makes.decode_readOf` says that
  the aggregate of a read is decoded into such events.
* `Makes.decode_corrupted`: a corrupted aggregate is decoded into an error and no event.
* `SimulatedBoard.decode_read`: the main result.
-/

namespace PulseDaq

namespace SimulatedBoard

/-- The events of a read: as many as the settings say for every group that takes part, group by
group in ascending order, all in the board's format, with channels of their group, and each one to
999 ticks after the one before it. The first one is so after the time `t`. -/
structure ReadOf (b : SimulatedBoard) (t : UInt32) (raws : List RawEvent) : Prop where
  groups : raws.map (·.group) =
    b.enabled.flatMap (List.replicate b.simulation.eventsPerGroup.toNat)
  format : ∀ raw ∈ raws, raw.format = b.format
  channel : ∀ raw ∈ raws, raw.channel.toNat / channelsPerGroup = raw.group.val
  ticking : (t :: raws.map (·.timeTag)).IsChain ShortlyAfter

namespace Makes

variable {b : SimulatedBoard} {calls : List GroupCall} {t t' : UInt32}

/-- The groups of the calls are those that take part. -/
theorem map_index_aggregate (h : Makes b calls) :
    calls.map (fun c => c.aggregate.index) = b.enabled := by
  have hcut : calls.map (fun c => c.aggregate.index) =
      (calls.map (·.index)).map fun i => Fin.ofNat 8 i.toNat := by
    rw [List.map_map]
    rfl
  rw [hcut, h.indices, List.map_map]
  conv_rhs => rw [← List.map_id b.enabled]
  refine List.map_congr_left fun g _ => ?_
  rw [Function.comp_apply, toNat_ofGroup]
  exact Fin.ext (Nat.mod_eq_of_lt g.isLt)

/-- The groups of a read are in the order in which they are drawn. -/
theorem groups_ofCalls (h : Makes b calls) :
    (BoardAggregate.ofCalls calls).groups = calls.map GroupCall.aggregate := by
  have hasc : (b.enabled.map fun g => UInt8.ofNat g.val).Pairwise
      fun i j => i.toNat < j.toNat := by
    rw [List.pairwise_map, enabled, GroupMask.groups]
    refine ((List.pairwise_lt_finRange 8).filter _).imp fun {g g'} hlt => ?_
    rwa [toNat_ofGroup, toNat_ofGroup]
  rw [← h.indices, List.pairwise_map] at hasc
  exact BoardAggregate.groups_ofCalls_of_ascending (fun c hc => (h.properCalls c hc).1) hasc

/-- The events of a read, as the decoder finds them. -/
def rawEvents (calls : List GroupCall) : List RawEvent :=
  calls.flatMap fun c => c.aggregate.rawEvents

theorem mem_rawEvents {raw : RawEvent} (hraw : raw ∈ rawEvents calls) :
    ∃ c ∈ calls, ∃ e ∈ c.events, raw = e.raw c.format c.aggregate.index := by
  obtain ⟨c, hc, hraw⟩ := List.mem_flatMap.1 hraw
  obtain ⟨e, he, rfl⟩ := List.mem_map.1 hraw
  exact ⟨c, hc, e, he, rfl⟩

theorem channel_raw (e : SyntheticEvent) (f : GroupFormat) (g : Group)
    (he : e.channel.toNat < channelsPerGroup) :
    (e.raw f g).channel.toNat / channelsPerGroup = g.val := by
  have hand : e.channel.toNat &&& 0xF = e.channel.toNat := by
    rw [show 0xF = 2 ^ 4 - 1 from rfl, Nat.and_two_pow_sub_one_eq_mod]
    exact Nat.mod_eq_of_lt (Nat.lt_trans he (by decide))
  have hjoin : 2 ^ 3 * g.val + e.channel.toNat = 2 ^ 3 * g.val ||| e.channel.toNat :=
    Nat.two_pow_add_eq_or_of_lt he g.val
  rw [channelsPerGroup] at he ⊢
  rw [e.channel_raw, hand, show 8 * g.val = 2 ^ 3 * g.val from rfl, ← hjoin]
  omega

theorem readOf_rawEvents (h : Makes b calls) (htimed : Timed t calls t') :
    ReadOf b t (rawEvents calls) where
  groups := by
    rw [rawEvents, List.map_flatMap, ← h.map_index_aggregate, List.flatMap_map]
    refine List.flatMap_congr fun c hc => ?_
    rw [GroupAggregate.rawEvents, List.map_map, ← (h.each c hc).2]
    exact List.map_const'
  format raw hraw := by
    obtain ⟨c, hc, e, -, rfl⟩ := mem_rawEvents hraw
    exact (h.each c hc).1
  channel raw hraw := by
    obtain ⟨c, hc, e, he, rfl⟩ := mem_rawEvents hraw
    exact channel_raw e c.format _ (htimed.channel_lt c hc e he)
  ticking := by
    have htimes : (rawEvents calls).map (·.timeTag) =
        calls.flatMap fun c => c.events.map (·.time) := by
      rw [rawEvents, List.map_flatMap]
      refine List.flatMap_congr fun c _ => ?_
      rw [GroupAggregate.rawEvents, List.map_map]
      rfl
    rw [htimes]
    exact htimed.ticking.isChain

/-- The aggregate of a read is decoded into its events. -/
theorem decode_readOf (h : Makes b calls) (htimed : Timed t calls t')
    (hsize : b.readWords < 0x10000000) :
    ∃ raws : List RawEvent,
      PulseDaq.decode (BoardAggregate.ofCalls calls).toBytes = raws.map .ok ∧ ReadOf b t raws := by
  have hdecode := decode_ofCalls h.properCalls (by rw [h.length_words]; exact hsize)
  have hraws : (packedEvents calls).map PackedEvent.raw = rawEvents calls := by
    rw [← flatMap_rawEvents_lastGroups,
      ← BoardAggregate.groups_ofCalls fun c hc => (h.properCalls c hc).1, h.groups_ofCalls,
      List.flatMap_map]
    rfl
  rw [hraws] at hdecode
  exact ⟨_, hdecode, h.readOf_rawEvents htimed⟩

/-- A corrupted aggregate is decoded into an error and no event. -/
theorem decode_corrupted (h : Makes b calls) (hsize : b.readWords < 0x10000000 - 1) :
    ∃ e, PulseDaq.decode (corrupted (BoardAggregate.ofCalls calls).toBytes) = [.error e] := by
  have hlength := h.length_words
  obtain ⟨frame, hwords, -⟩ := exists_boardFrame h.properCalls (by omega)
  rw [BoardAggregate.toBytes, ← hwords]
  exact SimulatedBoard.decode_corrupted frame (by rw [hwords, hlength]; omega)

end Makes

/-! ## Reads -/

section Readout

variable {b : SimulatedBoard} {n : UInt32}

/-- A board that does not acquire, or idles, has nothing to read. -/
theorem readout_of_idle (h : b.acquiring = false ∨ isDue n b.simulation.idleEvery = true) :
    (readout n b).1 = [] := by
  have hempty : (!b.acquiring || isDue n b.simulation.idleEvery) = true := by
    rcases h with h | h <;> simp [h]
  rw [readout_eq, if_pos hempty]

/-- Else there is an aggregate, which may be corrupted. -/
theorem decode_readout (hacquiring : b.acquiring = true)
    (hidle : isDue n b.simulation.idleEvery = false) (hsize : b.readWords < 0x10000000 - 1) :
    (isDue n b.simulation.corruptEvery = true → ∃ e, decode (readout n b).1 = [.error e]) ∧
    (isDue n b.simulation.corruptEvery = false →
      ∃ raws : List RawEvent, decode (readout n b).1 = raws.map .ok ∧ ReadOf b b.time raws) := by
  obtain ⟨⟨calls, hmakes, htimed, hmade⟩, -⟩ := aggregate_makes b
  have hfull : ¬(!b.acquiring || isDue n b.simulation.idleEvery) = true := by
    simp [hacquiring, hidle]
  rw [readout_eq, if_neg hfull, hmade]
  constructor
  · intro hcorrupt
    rw [if_pos hcorrupt]
    exact hmakes.decode_corrupted hsize
  · intro hwhole
    rw [if_neg (Bool.not_eq_true _ ▸ hwhole)]
    exact hmakes.decode_readOf htimed (Nat.lt_of_lt_of_le hsize (Nat.sub_le _ _))

end Readout

/-- A board that has been told of a read makes the same events. -/
theorem Took.alike {b b' : SimulatedBoard} (h : Took (.read, .ok ()) b b') : Alike b b' :=
  ⟨h.simulation, h.registers⟩

theorem Alike.readWords {b b' : SimulatedBoard} (h : Alike b b') : b'.readWords = b.readWords := by
  rw [SimulatedBoard.readWords, enabled, h.register, h.format, h.1, SimulatedBoard.readWords,
    enabled]

theorem Alike.readOf {b b' : SimulatedBoard} (h : Alike b b') {t : UInt32} {raws : List RawEvent}
    (hraws : ReadOf b' t raws) : ReadOf b t raws where
  groups := by rw [hraws.groups, enabled, h.register, h.1, enabled]
  format raw hraw := (hraws.format raw hraw).trans h.format
  channel := hraws.channel
  ticking := hraws.ticking

/-- **What a read is decoded into.** After any calls of a simulated board, with any settings and
whatever it draws, a read that is answered is empty if the board does not acquire or the read is an
idle one. Else the decoder yields the events that the registers ask for, without an error; or, if
the read is a corrupt one, an error and nothing else. -/
theorem decode_read (s : Simulation) (noise : Nat → Nat) (calls : List (BoardCall × ReadoutBuffer))
    (buffer : ReadoutBuffer) {b' : SimulatedBoard} {buffer' : ReadoutBuffer}
    (hread : Board.read ((LoggedBoard.run (ofSimulation s noise) calls).board, buffer) =
      .ok () (b', buffer')) :
    let l := LoggedBoard.run (ofSimulation s noise) calls
    let n := l.log.readNumber + 1
    (l.log.acquires = false ∨ isDue n s.idleEvery = true → buffer'.bytes = []) ∧
    (l.log.acquires = true → isDue n s.idleEvery = false →
      l.board.readWords < 0x10000000 - 1 →
        (isDue n s.corruptEvery = true → ∃ e, decode buffer'.bytes = [.error e]) ∧
        (isDue n s.corruptEvery = false → ∃ raws : List RawEvent,
          decode buffer'.bytes = raws.map .ok ∧ ReadOf l.board l.board.time raws)) := by
  intro l n
  have hrecorded : Recorded (ofSimulation s noise) l := recorded_run _ calls
  have houtcome := readInto_outcome l.board buffer
  rw [show readInto (l.board, buffer) = .ok () (b', buffer') from hread] at houtcome
  cases houtcome with
  | @filled told _ took time _ =>
    have hnumber : told.monitor.reads = n := by
      rw [took.reads, hrecorded.reads]
      exact congrArg (· + 1) (UInt32.zero_add _)
    have hacquires : l.log.acquires = told.acquiring :=
      (took.acquiring.trans (hrecorded.acquiring rfl)).symm
    have hsimulation : s = told.simulation := (took.simulation.trans hrecorded.simulation).symm
    rw [hnumber, hacquires, hsimulation, ← took.alike.readWords]
    refine ⟨readout_of_idle, fun hacquiring hidle hsize => ?_⟩
    obtain ⟨hcorrupt, hwhole⟩ := decode_readout hacquiring hidle hsize
    refine ⟨hcorrupt, fun hdue => ?_⟩
    obtain ⟨raws, hraws, hreadOf⟩ := hwhole hdue
    exact ⟨raws, hraws, took.alike.readOf (time ▸ hreadOf)⟩

/-- Groups 0 and 2 have one event each. Every second read is corrupt, every third one idle. -/
def spoiling : Simulation :=
  { groupMask := 5, eventsPerGroup := 1, idleEvery := 3, corruptEvery := 2 }

/-- Such a board is started and read so many times. -/
def reading (reads : Nat) : List (BoardCall × ReadoutBuffer) :=
  (.start, ⟨64, []⟩) :: List.replicate reads (.read, ⟨64, []⟩)

theorem exists_read_reading : ∀ reads < 3, ∃ b buffer,
    Board.read ((LoggedBoard.run (ofSimulation spoiling fun _ => 0) (reading reads)).board,
      ⟨64, []⟩) = .ok () (b, buffer) := by
  intro reads hreads
  have hanswered : ∀ reads < 3, (match Board.read
      ((LoggedBoard.run (ofSimulation spoiling fun _ => 0) (reading reads)).board, ⟨64, []⟩) with
    | .ok _ _ => true
    | .error _ _ => false) = true := by decide +kernel
  specialize hanswered reads hreads
  split at hanswered
  next s hrun => exact ⟨s.1, s.2, hrun⟩
  next => cases hanswered

/-- The first read has an event of each group, the second one an error, the third one nothing. -/
theorem decode_reading :
    (∃ b buffer,
      Board.read ((LoggedBoard.run (ofSimulation spoiling fun _ => 0) (reading 0)).board,
        ⟨64, []⟩) = .ok () (b, buffer) ∧
      ∃ raws : List RawEvent, decode buffer.bytes = raws.map .ok ∧ raws.map (·.group) = [0, 2]) ∧
    (∃ b buffer,
      Board.read ((LoggedBoard.run (ofSimulation spoiling fun _ => 0) (reading 1)).board,
        ⟨64, []⟩) = .ok () (b, buffer) ∧
      ∃ e, decode buffer.bytes = [.error e]) ∧
    ∃ b buffer,
      Board.read ((LoggedBoard.run (ofSimulation spoiling fun _ => 0) (reading 2)).board,
        ⟨64, []⟩) = .ok () (b, buffer) ∧
      buffer.bytes = [] := by
  obtain ⟨b₀, first, hfirst⟩ := exists_read_reading 0 (by decide)
  obtain ⟨b₁, second, hsecond⟩ := exists_read_reading 1 (by decide)
  obtain ⟨b₂, third, hthird⟩ := exists_read_reading 2 (by decide)
  refine ⟨⟨b₀, first, hfirst, ?_⟩, ⟨b₁, second, hsecond, ?_⟩, ⟨b₂, third, hthird, ?_⟩⟩
  · have henabled : enabled
        (LoggedBoard.run (ofSimulation spoiling fun _ => 0) (reading 0)).board = [0, 2] := by
      decide +kernel
    have hread := (decode_read _ _ _ _ hfirst).2 (by decide +kernel) (by decide +kernel)
      (by decide +kernel)
    obtain ⟨raws, hraws, hreadOf⟩ := hread.2 (by decide +kernel)
    exact ⟨raws, hraws, hreadOf.groups.trans (by rw [henabled]; rfl)⟩
  · have hread := (decode_read _ _ _ _ hsecond).2 (by decide +kernel) (by decide +kernel)
      (by decide +kernel)
    exact hread.1 (by decide +kernel)
  · exact (decode_read _ _ _ _ hthird).1 (.inr (by decide +kernel))

end SimulatedBoard

end PulseDaq
