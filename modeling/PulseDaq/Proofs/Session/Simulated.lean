import PulseDaq.Proofs.Board.Simulated

/-!
# Sessions of simulated boards

A session asks group 0 for the record length, and makes its layout of the answer. A simulated board
answers the group's own value if there is one, but it builds its events from the global value. So
the events have the format that the session was promised unless the two values differ.

* `SimulatedBoard.promised`: the format that the answers of a board promise.
* `Session.Informed`: the invariant. The layout of an opened session is made of the values that its
  board has now.
* `SessionRun.acquire_simulated`: what becomes of a cycle, by whether the promise is kept.
-/

namespace PulseDaq

namespace SimulatedBoard

/-- The format that the answers of the board promise. -/
def promised (b : SimulatedBoard) : GroupFormat :=
  let configuration : BoardConfiguration := { value := b.register .boardConfiguration none }
  let samples := if configuration.waveform then b.register .recordLength (some 0) else 0
  .withSamples configuration.extras samples.toNat

/-- The promised events differ from those of the board in their samples at most. -/
theorem promised_stride {b : SimulatedBoard} (h : b.promised.samples = b.format.samples) :
    b.promised.stride = b.format.stride := by
  have hwords : b.promised.sampleWords = b.format.sampleWords :=
    Nat.eq_of_mul_eq_mul_left Nat.two_pos h
  have hextras : b.promised.extraWords = b.format.extraWords := rfl
  rw [GroupFormat.stride, GroupFormat.stride, hwords, hextras]

theorem Alike.answers {b b' : SimulatedBoard} (h : Alike b b') : b'.Answers = b.Answers := by
  unfold Answers
  rw [h.register]

theorem Alike.sized {b b' : SimulatedBoard} (h : Alike b b') : b'.Sized = b.Sized := by
  unfold Sized
  rw [h.1]

/-- A layout that is made of the board's answers has the promised format and at least one group, and
is one of waveforms if the promise is broken. -/
theorem layout_of_answers {b : SimulatedBoard} {l : Layout} (h : l.MadeOf b.Answers) :
    l.format = b.promised ∧ b.enabled ≠ [] ∧
      (b.promised.samples ≠ b.format.samples → l.kind = .waveform) := by
  obtain ⟨configuration, mask, recordLength, settings, hconfiguration, hmask, hrecord, -, hgroups,
    hsettings, rfl⟩ := h
  have hvalue : configuration = ⟨b.register .boardConfiguration none⟩ :=
    congrArg BoardConfiguration.mk (hconfiguration (by decide))
  refine ⟨?_, fun hnone => ?_, fun hne => ?_⟩
  · show GroupFormat.withSamples configuration.extras recordLength.toNat = b.promised
    rw [promised, ← hvalue]
    by_cases hw : configuration.waveform
    · rw [if_pos hw] at hrecord ⊢
      rw [hrecord (by decide)]
    · rw [if_neg hw] at hrecord ⊢
      rw [hrecord]
  · have hgroups' : settings.map (·.1) = b.enabled := by
      rw [enabled, ← hmask (by decide), ← GroupMask.groups_mod]
      exact hgroups
    exact hsettings (List.map_eq_nil_iff.1 (hgroups'.trans hnone))
  · have hwaveform : configuration.waveform = true := by
      by_contra hw
      refine hne ?_
      rw [promised, format, ← hvalue, if_neg hw, if_neg hw]
    show RecordKind.ofFlags configuration.extras configuration.waveform = .waveform
    rw [hwaveform]
    rfl

end SimulatedBoard

namespace Session

variable {ω : Type} {options : SessionOptions} {simulation : Simulation}

/-! ## The invariant -/

/-- The session is equipped for the values and the settings that its board has. -/
def Informed (options : SessionOptions) (simulation : Simulation) (s : Session SimulatedBoard) :
    Prop :=
  s.Equipped s.board.Answers s.board.Sized options ∧ s.board.simulation = simulation

theorem informed_of_alike {b₀ : SimulatedBoard} {s : Session SimulatedBoard}
    (h : s.Equipped b₀.Answers b₀.Sized options ∧ b₀.Alike s.board) :
    s.Informed options b₀.simulation := by
  refine ⟨?_, h.2.1⟩
  rw [h.2.answers, h.2.sized]
  exact h.1

/-- Setting a value leaves the settings of the simulation. -/
theorem set_keeps_simulation (f : FunctionId) (i : Option UInt32) (v : UInt32) :
    Preserves (fun b : SimulatedBoard => b.simulation = simulation) (Board.set f i v) :=
  .bind (.ofExcept _) fun _ => .bind (SimulatedBoard.link_keeps fun _ _ _ h => h) fun _ =>
    .modify fun _ h => h

variable [DataWriter ω]

/-- Any operation but a close keeps the session informed: the values change in a closed session
only, which has no use for its layout. -/
theorem perform_informed (hcorrupt : simulation.corruptEvery = 0) {c : SessionCall}
    (hclose : c ≠ .close) :
    Preserves (fun s : Session SimulatedBoard × ω => s.1.Informed options simulation)
      c.perform := by
  -- Only a configuration changes the values; around any other call they are fixed.
  by_cases hconfigure : ∃ settings, c = .configure settings
  · obtain ⟨settings, rfl⟩ := hconfigure
    have hclosed (s : Session SimulatedBoard) (hstate : s.state = .closed) :
        s.Informed options simulation ↔ s.options = options ∧ s.board.simulation = simulation :=
      and_congr_left' (equipped_closed hstate)
    exact alone_triple (configure_keeps set_keeps_simulation hclosed settings)
  · rintro s ⟨hs, rfl⟩
    have hkeeps : Preserves (fun s' : Session SimulatedBoard × ω =>
        s'.1.Equipped s.1.board.Answers s.1.board.Sized options ∧ s.1.board.Alike s'.1.board)
        c.perform :=
      SessionCall.perform_equipped (SimulatedBoard.contract hcorrupt) hclose
        fun settings h => absurd ⟨settings, h⟩ hconfigure
    exact hkeeps.imp (fun _ _ => informed_of_alike) (fun _ _ => informed_of_alike) s
      ⟨hs, .refl _⟩

/-! ## What becomes of a readout -/

section Settling

variable {b : SimulatedBoard} {layout : Layout} {records : RecordBuffer} {calls : List GroupCall}
  {s : Session SimulatedBoard}

/-- As many events as a read has fit the record buffer that was made for the readout buffer. -/
theorem events_le_capacity (hoptions : options.bufferEvents = none)
    (hlayout : layout.MadeOf b.Answers) (hslots : layout.Slots b.Sized options records)
    (hmakes : SimulatedBoard.Makes b calls)
    (hread : (BoardAggregate.ofCalls calls).toBytes.length ≤ b.simulation.readoutBytes)
    (hagree : b.promised.samples = b.format.samples) :
    b.simulation.eventsPerGroup.toNat * b.enabled.length ≤ records.capacity := by
  obtain ⟨readout, hsized, hcapacity⟩ := hslots.capacity
  obtain ⟨hformat, -⟩ := SimulatedBoard.layout_of_answers hlayout
  have hstride : layout.format.stride = b.format.stride := by
    rw [hformat, SimulatedBoard.promised_stride hagree]
  have hpos : 0 < 4 * b.format.stride := by
    have := b.format.two_le_stride
    omega
  rw [hcapacity hoptions, defaultSlots, hstride, hsized]
  refine Nat.le_trans ((Nat.le_div_iff_mul_le hpos).2 (Nat.le_trans ?_ hread)) (Nat.le_max_left ..)
  rw [hmakes.length_toBytes, SimulatedBoard.readWords, Nat.mul_add]
  generalize b.simulation.eventsPerGroup.toNat = events
  -- The events alone take no more bytes than all of the read.
  calc events * b.enabled.length * (4 * b.format.stride)
      = 4 * (b.enabled.length * (events * b.format.stride)) := by ac_rfl
    _ ≤ 4 * (b.enabled.length * (Decoder.headerWords + events * b.format.stride)) :=
      Nat.mul_le_mul_left _ (Nat.mul_le_mul_left _ (Nat.le_add_left ..))
    _ ≤ _ := Nat.le_add_left ..

/-- A read that fits the buffer is written if its events have the promised size, and lost with its
first event if not. -/
theorem settle_simulated (hoptions : options.bufferEvents = none)
    (hlayout : layout.MadeOf b.Answers) (hslots : layout.Slots b.Sized options records)
    (hrecords : s.records = some records) (hmakes : SimulatedBoard.Makes b calls)
    (hread : (BoardAggregate.ofCalls calls).toBytes.length ≤ b.simulation.readoutBytes)
    (hwords : b.readWords < 0x10000000) {timestamp : UInt64} {w : ω} {cycle : Cycle}
    {left : Session SimulatedBoard × ω}
    (hcycle : settle layout records (BoardAggregate.ofCalls calls).toBytes timestamp (s, w) =
      .ok cycle left) :
    if b.promised.samples = b.format.samples ∨ b.simulation.eventsPerGroup = 0 then
      cycle = .written (BoardAggregate.ofCalls calls).toBytes.length
          (b.simulation.eventsPerGroup.toNat * b.enabled.length) ∨ ∃ e, cycle = .writeFailed e
    else
      cycle = .lost (.buffer (.elementSize (RecordKind.waveform.elementSize b.promised.samples)
        (RecordKind.waveform.elementSize b.format.samples))) := by
  obtain ⟨hformat, henabled, hwaveform⟩ := SimulatedBoard.layout_of_answers hlayout
  obtain ⟨raws, hdecode, hlength, hsamples⟩ := hmakes.decode hwords
  have hslot : records.elementSize = layout.kind.elementSize b.promised.samples := by
    rw [hslots.elementSize, hlayout.elementSize, hformat]
  have hsize (raw : RawEvent) (hraw : raw ∈ raws) :
      (Event.ofRaw layout.kind raw).elementSize = layout.kind.elementSize b.format.samples := by
    rw [Event.elementSize_ofRaw, hsamples raw hraw]
  rw [← hlength]
  split
  next hagree =>
    refine settle_storable hrecords hslots.elementSize ⟨hmakes.toBytes_ne_nil, hdecode, ?_⟩ hcycle
    obtain hagree | hnone := hagree
    · refine ⟨fun raw hraw => ?_, ?_⟩
      · rw [hsize raw hraw, ← hslots.elementSize, hslot, hagree]
      · rw [hlength]
        exact events_le_capacity hoptions hlayout hslots hmakes hread hagree
    · rw [hnone, UInt32.toNat_zero, Nat.zero_mul] at hlength
      obtain rfl := List.eq_nil_of_length_eq_zero hlength
      exact ⟨fun _ h => absurd h List.not_mem_nil, Nat.zero_le _⟩
  next hdisagree =>
    -- There is an event, and already the first one does not fit its slot.
    obtain ⟨hdiffer, hevents⟩ := not_or.1 hdisagree
    have hpos : 0 < raws.length := by
      rw [hlength]
      exact Nat.mul_pos (Nat.pos_of_ne_zero fun h => hevents (UInt32.toNat_inj.1 h))
        (List.length_pos_iff.2 henabled)
    obtain ⟨raw, rest, rfl⟩ := List.exists_cons_of_length_pos hpos
    have hfirst := hsize raw List.mem_cons_self
    rw [hwaveform hdiffer] at hfirst hslot
    rw [← hslot]
    refine settle_refused hmakes.toBytes_ne_nil hdecode ?_ ?_ hcycle
    · rw [hwaveform hdiffer, hfirst]
    · exact fun h => hdiffer (RecordKind.elementSize_waveform_inj (h.trans hslot)).symm

end Settling

end Session

/-! ## Main result -/

section Main

variable {ω : Type} [DataWriter ω]

/-- A session that was closed once and that no one has tried to close since is informed. -/
theorem SessionRun.run_informed (closed : SessionRun SimulatedBoard ω)
    (hclosed : closed.session.state = .closed)
    (hcorrupt : closed.session.board.simulation.corruptEvery = 0) {calls : List SessionCall}
    (hcalls : ∀ c ∈ calls, c ≠ .close) :
    (closed.run calls).session.Informed closed.session.options closed.session.board.simulation :=
  run_keeps (fun c hc => Session.perform_informed hcorrupt (hcalls c hc)) closed
    ⟨(Session.equipped_closed hclosed).2 rfl, rfl⟩

/-- Open a closed session of a simulated board that breaks no aggregate, with a record buffer whose
size follows from the readout's, and let it go through any operations but a close, with whatever
outcomes, cycles and event values. A cycle that answers is idle if it has read nothing. Otherwise it
is written, or its write fails, with as many events as the settings say for every group that takes
part, unless the events have another number of samples than the answers of the board have promised.
Such a cycle is lost with its first event. -/
theorem SessionRun.acquire_simulated (closed : SessionRun SimulatedBoard ω)
    (calls : List SessionCall) (r : SessionRun SimulatedBoard ω) (timestamp : UInt64)
    (cycle : Cycle) (s : Session SimulatedBoard × ω) (hclosed : closed.session.state = .closed)
    (hoptions : closed.session.options.bufferEvents = none)
    (hcorrupt : closed.session.board.simulation.corruptEvery = 0)
    (hcalls : ∀ c ∈ calls, c ≠ .close) (hr : r = closed.run calls)
    (hwords : r.session.board.readWords < 0x10000000)
    (hcycle : Session.acquire timestamp (r.session, r.writer) = .ok cycle s) :
    let b := r.session.board
    ∃ buffer, s.1.readout = some buffer ∧
      if buffer.bytes = [] then
        cycle = .idle
      else if b.promised.samples = b.format.samples ∨ b.simulation.eventsPerGroup = 0 then
        cycle = .written buffer.bytes.length
            (b.simulation.eventsPerGroup.toNat * b.enabled.length) ∨ ∃ e, cycle = .writeFailed e
      else
        cycle = .lost (.buffer (.elementSize (RecordKind.waveform.elementSize b.promised.samples)
          (RecordKind.waveform.elementSize b.format.samples))) := by
  obtain ⟨hequipped, hsimulation⟩ := hr ▸ closed.run_informed hclosed hcorrupt hcalls
  -- The cycle has answered, so it was not refused.
  have hstate : r.session.state = .acquiring := by
    by_contra hne
    rw [Session.acquire_outside hne] at hcycle
    cases hcycle
  obtain ⟨-, layout, readout, records, hlayout, hreadout, hrecords, hmade, hsized, hslots⟩ :=
    (Session.equipped_stocked (.inr hstate)).1 hequipped
  have hread := Session.read_triple (SimulatedBoard.contract (hsimulation.symm ▸ hcorrupt)).read
    r.session readout r.session (Session.reading_self hreadout hsized (.refl _))
  rw [Session.acquire_eq hstate hlayout hreadout hrecords] at hcycle
  cases hrun : Session.retried (Session.readInto readout) r.session with
  | error e left =>
    rw [hrun] at hcycle
    cases hcycle
  | ok buffer left =>
    rw [hrun] at hread hcycle
    dsimp only at hcycle
    obtain ⟨⟨-, hbytes⟩, ⟨board, old, waited, rfl⟩, hleft, -⟩ := hread
    obtain ⟨cycle', stats, records', w', hsettle⟩ := Session.settle_answers layout records
      buffer.bytes timestamp { r.session with board, readout := old, waited } r.writer
    obtain ⟨rfl, rfl⟩ := EStateM.Result.ok.inj (hsettle.symm.trans hcycle)
    refine ⟨buffer, hleft, ?_⟩
    obtain hempty | ⟨made, hmakes, hbytes, hfits⟩ := hbytes
    · rw [hempty] at hcycle
      rw [if_pos hempty]
      cases hcycle
      rfl
    · rw [hbytes] at hcycle hfits ⊢
      rw [if_neg hmakes.toBytes_ne_nil]
      exact Session.settle_simulated
        (s := { r.session with board, readout := old, waited }) hoptions hmade hslots hrecords
        hmakes hfits hwords hcycle

end Main

/-- A board whose events have sixteen samples. -/
def sixteenSamples : SimulatedBoard :=
  .ofSimulation { waveform := true, recordLength := 16, groupMask := 1, eventsPerGroup := 2 }
    fun _ => 0

/-- A session of it, where group 0 alone has been told to take eight. -/
def promisedEight : SessionRun SimulatedBoard Totals :=
  (SessionRun.ofBoard sixteenSamples {} {}).run
    [.configure [⟨.recordLength, some 0, 8⟩], .initialise, .prepare, .start 0]

/-- Its slots have room for eight samples, so its first cycle is lost. -/
theorem promisedEight_loses :
    promisedEight.session.board.promised.samples = 8 ∧
      promisedEight.session.board.format.samples = 16 ∧
      ∃ s, Session.acquire 1 (promisedEight.session, promisedEight.writer) =
        .ok (.lost (.buffer (.elementSize 46 62))) s := by
  have hcalls : ∀ c ∈ [SessionCall.configure [⟨.recordLength, some 0, 8⟩], .initialise, .prepare,
      .start 0], c ≠ .close := by
    simp
  have hpromised : promisedEight.session.board.promised.samples = 8 := by decide +kernel
  have hformat : promisedEight.session.board.format.samples = 16 := by decide +kernel
  have hevents : promisedEight.session.board.simulation.eventsPerGroup = 2 := by decide +kernel
  have hstate : promisedEight.session.state = .acquiring := by decide +kernel
  have hreadout : promisedEight.session.readout = some ⟨1048576, []⟩ := by decide +kernel
  have hwords : promisedEight.session.board.readWords = 26 := by decide +kernel
  have hread : (match Session.retried (Session.readInto ⟨1048576, []⟩) promisedEight.session with
      | .ok _ s => s.readout.map (·.bytes.length)
      | .error _ _ => none) = some 104 := by
    decide +kernel
  obtain ⟨layout, hlayout⟩ := Option.isSome_iff_exists.1
    (show promisedEight.session.layout.isSome by decide +kernel)
  obtain ⟨records, hrecords⟩ := Option.isSome_iff_exists.1
    (show promisedEight.session.records.isSome by decide +kernel)
  -- The run is evaluated up to the read; what becomes of the bytes is what the theorem says.
  have hrun := Session.acquire_eq hstate hlayout hreadout hrecords 1 promisedEight.writer
  cases hleft : Session.retried (Session.readInto ⟨1048576, []⟩) promisedEight.session with
  | error e left =>
    rw [hleft] at hread
    cases hread
  | ok buffer left =>
    rw [hleft] at hread hrun
    obtain ⟨cycle, stats, records', w', hsettle⟩ :=
      Session.settle_answers layout records buffer.bytes 1 left promisedEight.writer
    have hcycle := hrun.trans hsettle
    obtain ⟨buffer', hbuffer, hlost⟩ := SessionRun.acquire_simulated
      (SessionRun.ofBoard sixteenSamples {} ({} : Totals)) _ promisedEight 1 cycle _ rfl rfl
      (by decide +kernel) hcalls rfl (by rw [hwords]; decide) hcycle
    have hlength : buffer'.bytes.length = 104 := by
      have hleft' : left.readout.map (·.bytes.length) = some 104 := hread
      rw [show left.readout = some buffer' from hbuffer] at hleft'
      exact Option.some.inj hleft'
    have hbytes : buffer'.bytes ≠ [] := List.ne_nil_of_length_pos (by rw [hlength]; decide)
    rw [if_neg hbytes, hpromised, hformat, hevents, if_neg (by decide)] at hlost
    exact ⟨hpromised, hformat, _, hlost ▸ hcycle⟩

end PulseDaq
