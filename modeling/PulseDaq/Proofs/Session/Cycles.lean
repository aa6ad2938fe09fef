import PulseDaq.Proofs.Record.Filling
import PulseDaq.Proofs.Record.Unit
import PulseDaq.Proofs.Session.Calls
import PulseDaq.Proofs.Storage.Logged

/-!
# One cycle

Behind its read a cycle is a function of what has been read (`Session.settle`). Either all of it
is decoded into events that fit the record buffer, and the writer is called with their records, or
the writer is not called at all (`Session.settle_cases`). What the record buffer held before does
not matter, since the cycle clears it first.

* `Session.acquire_eq`: a cycle is a read and what is made of it.
* `Session.settle_leaves`: behind the read only the totals and the record buffer change.
* `LoggedWriter`: a writer with a log of what it was asked to do.
* `HandedOver`: the writer was asked once, to store the records of some events.
-/

namespace PulseDaq

/-- A readout that is more than nothing and is decoded into events that a buffer of so many slots
can take as records of the layout. -/
structure Storable (layout : Layout) (slots : Nat) (bytes : Bytes) (raws : List RawEvent) :
    Prop where
  read : bytes ≠ []
  decoded : decode bytes = raws.map .ok
  fit : RawEvent.Fit layout.kind layout.elementSize slots raws

/-- What a readout is decoded into is determined. -/
theorem Storable.eq_of_decode {layout : Layout} {slots : Nat} {bytes : Bytes}
    {raws raws' : List RawEvent} (h : Storable layout slots bytes raws)
    (hdecode : decode bytes = raws'.map .ok) : raws = raws' :=
  List.map_injective_iff.2 (fun _ _ h => Except.ok.inj h) (h.decoded.symm.trans hdecode)

/-! ## Behind the read -/

namespace Stats

/-- One more cycle in which the board had nothing. -/
def idle (t : Stats) : Stats :=
  { t with cycles := t.cycles + 1, idleCycles := t.idleCycles + 1 }

/-- One more cycle whose readout could not be decoded. -/
def lost (t : Stats) (bytes : Nat) : Stats :=
  { t with
    cycles := t.cycles + 1
    bytesRead := t.bytesRead + UInt64.ofNat bytes
    lostCycles := t.lostCycles + 1 }

/-- One more cycle with events. -/
def found (t : Stats) (bytes events : Nat) : Stats :=
  { t with
    cycles := t.cycles + 1
    bytesRead := t.bytesRead + UInt64.ofNat bytes
    eventsFound := t.eventsFound + UInt64.ofNat events }

end Stats

namespace Session

section Cycle

variable {β ω : Type} {s : Session β} {layout : Layout} {readout : ReadoutBuffer}
  {records : RecordBuffer}

/-- What a cycle makes of the bytes that it has read. -/
def settle [DataWriter ω] (layout : Layout) (records : RecordBuffer) (bytes : Bytes)
    (timestamp : UInt64) : EStateM SessionError (Session β × ω) Cycle := fun (s, w) =>
  if bytes = [] then
    .ok .idle ({ s with stats := s.stats.idle }, w)
  else
    match records.clear.fill layout.kind bytes with
    | (.error e, filled) =>
      let stats := s.stats.lost bytes.length
      .ok (.lost e) ({ s with stats, records := some filled.clear }, w)
    | (.ok events, filled) =>
      let stats := s.stats.found bytes.length events
      store layout filled bytes.length events timestamp
        ({ s with stats, records := some filled }, w)

theorem alone_of_ok {ε α : Type} {op : EStateM ε (Session β) α} {s s' : Session β} {a : α} (w : ω)
    (h : op s = .ok a s') : alone op (s, w) = .ok a (s', w) := by
  simp only [alone, h]

theorem alone_of_error {ε α : Type} {op : EStateM ε (Session β) α} {s s' : Session β} {e : ε}
    (w : ω) (h : op s = .error e s') : alone op (s, w) = .error e (s', w) := by
  simp only [alone, h]

/-- A cycle that has all it needs reads, and fails if that fails. -/
theorem acquire_eq [Board β] [DataWriter ω] (hstate : s.state = .acquiring)
    (hlayout : s.layout = some layout) (hreadout : s.readout = some readout)
    (hrecords : s.records = some records) (timestamp : UInt64) (w : ω) :
    acquire timestamp (s, w) = match retried (readInto readout) s with
      | .error e s => .error e (s, w)
      | .ok buffer s => settle layout records buffer.bytes timestamp (s, w) := by
  unfold acquire
  refine (bind_of_ok (alone_of_ok w (require_ok hstate _))).trans ((bind_of_ok rfl).trans ?_)
  simp only [hlayout, hreadout, hrecords]
  cases hread : retried (readInto readout) s with
  | error e s₁ => exact bind_of_error (alone_of_error w hread)
  | ok buffer s₁ =>
    refine (bind_of_ok (alone_of_ok w hread)).trans ((bind_of_ok rfl).trans ?_)
    simp only [settle]
    by_cases hbytes : buffer.bytes = []
    · rw [hbytes]
      rfl
    rw [if_neg hbytes, if_neg (by simpa using hbytes)]
    refine (bind_of_ok rfl).trans ?_
    unfold decodeInto
    cases records.clear.fill layout.kind buffer.bytes with
    | mk result filled =>
      cases result with
      | error e => rfl
      | ok events => rfl

/-- Without a running acquisition there is no cycle. -/
theorem acquire_outside [Board β] [DataWriter ω] (hstate : s.state ≠ .acquiring)
    (timestamp : UInt64) (w : ω) :
    acquire timestamp (s, w) = .error (.state .acquire s.state) (s, w) :=
  bind_of_error (alone_of_error w (require_refused hstate _))

/-- A readout that can be stored is handed to the writer, its records and no other; any other is
dropped, whoever the writer is. -/
theorem settle_cases (hrecords : s.records = some records)
    (hsize : records.elementSize = layout.elementSize) (bytes : Bytes) (timestamp : UInt64) :
    (∃ raws filled stats, Storable layout records.capacity bytes raws ∧
      filled.contents = { records.contents with records := RawEvent.records layout.kind raws } ∧
      ∀ {ω : Type} [DataWriter ω] (w : ω), settle layout records bytes timestamp (s, w) =
        store layout filled bytes.length raws.length timestamp
          ({ s with stats, records := some filled }, w)) ∨
    (∃ cycle left stats more, (∀ raws, ¬Storable layout records.capacity bytes raws) ∧
      (cycle = .idle ∨ ∃ e, cycle = .lost e) ∧
      left.contents = { records.contents with records := more } ∧
      ∀ {ω : Type} [DataWriter ω] (w : ω), settle layout records bytes timestamp (s, w) =
        .ok cycle ({ s with stats, records := some left }, w)) := by
  by_cases hbytes : bytes = []
  · refine .inr ⟨.idle, records, s.stats.idle, records.records, fun raws h => h.read hbytes,
      .inl rfl, rfl, fun w => ?_⟩
    rw [settle, if_pos hbytes, ← hrecords]
  obtain ⟨raws, filled, hdecode, hfit, hfill, hfilled⟩ |
    ⟨e, filled, more, hnot, hfill, hfilled⟩ := records.fill_cases layout.kind bytes
  · refine .inl ⟨raws, filled, s.stats.found bytes.length raws.length,
      ⟨hbytes, hdecode, hsize ▸ hfit⟩, hfilled, fun w => ?_⟩
    simp only [settle, if_neg hbytes, hfill]
  · refine .inr ⟨.lost e, filled.clear, s.stats.lost bytes.length, [], ?_, .inr ⟨e, rfl⟩, ?_,
      fun w => ?_⟩
    · exact fun raws h => hnot raws h.decoded (hsize ▸ h.fit)
    · rw [RecordBuffer.contents_clear, hfilled]
      rfl
    · simp only [settle, if_neg hbytes, hfill]

end Cycle

end Session

/-! ## What a writer is asked to do -/

/-- A writer that logs what it is asked to do, the latest first. -/
structure LoggedWriter (ω : Type) where
  writer : ω
  calls : List WriterCall := []

namespace LoggedWriter

variable {ω : Type} [DataWriter ω]

/-- Make a call and log it. -/
def note (c : WriterCall) : EStateM WriterError (LoggedWriter ω) Unit := fun l =>
  match c.perform l.writer with
  | .ok _ writer => .ok () { writer, calls := c :: l.calls }
  | .error e writer => .error e { writer, calls := c :: l.calls }

instance : DataWriter (LoggedWriter ω) where
  addDigitizer id := note (.addDigitizer id)
  writeBuffer kind buffer id timestamp := note (.writeBuffer kind buffer id timestamp)
  writeSet events id timestamp := note (.writeSet events id timestamp)
  writeEvents events id timestamp := note (.writeEvents events id timestamp)
  close := note .close

end LoggedWriter

/-- The one call was to store a buffer with the records of these events, from which the events can
be read back. -/
def HandedOver (layout : Layout) (raws : List RawEvent) (id timestamp : UInt64)
    (calls : List WriterCall) : Prop :=
  let events := raws.map (Event.ofRaw layout.kind)
  ∃ buffer : RecordBuffer,
    calls = [.writeBuffer layout.kind buffer id timestamp] ∧
      buffer.Holds ⟨buffer.capacityBytes, layout.elementSize, [], events.map Event.encode⟩ ∧
      buffer.rawBytes = Event.encodeAll events ∧
      Event.ofUnit buffer.rawBytes layout.kind layout.elementSize = .ok events

namespace Session

variable {β ω : Type} [DataWriter ω]

/-- Storing calls the writer once, and its failure is an outcome. -/
theorem store_logged (layout : Layout) (filled : RecordBuffer) (bytes events : Nat)
    (timestamp : UInt64) (s : Session β) (w : ω) :
    ∃ cycle stats w', (cycle = .written bytes events ∨ ∃ e, cycle = .writeFailed e) ∧
      store (ε := SessionError) layout filled bytes events timestamp (s, w) =
        .ok cycle ({ s with stats }, w') ∧
      store (ε := SessionError) layout filled bytes events timestamp (s, LoggedWriter.mk w []) =
        .ok cycle ({ s with stats }, ⟨w', [.writeBuffer layout.kind filled s.id timestamp]⟩) := by
  simp only [store, DataWriter.writeBuffer, LoggedWriter.note, WriterCall.perform]
  cases DataWriter.writeBuffer layout.kind filled s.id timestamp w with
  | ok _ w' => exact ⟨.written bytes events, s.stats, w', .inl rfl, rfl, rfl⟩
  | error e w' => exact ⟨.writeFailed e, _, w', .inr ⟨e, rfl⟩, rfl, rfl⟩

/-- Behind its read a cycle does not fail, and leaves the board and what was read alone. -/
theorem settle_answers (layout : Layout) (records : RecordBuffer) (bytes : Bytes)
    (timestamp : UInt64) (s : Session β) (w : ω) :
    ∃ cycle stats left w', settle layout records bytes timestamp (s, w) =
      .ok cycle ({ s with stats, records := left }, w') := by
  by_cases hbytes : bytes = []
  · exact ⟨.idle, s.stats.idle, s.records, w, if_pos hbytes⟩
  simp only [settle, if_neg hbytes]
  cases records.clear.fill layout.kind bytes with
  | mk result filled =>
    cases result with
    | error e => exact ⟨.lost e, _, some filled.clear, w, rfl⟩
    | ok events =>
      obtain ⟨cycle, stats, w', -, hstore, -⟩ := store_logged layout filled bytes.length events
        timestamp { s with stats := s.stats.found bytes.length events, records := some filled } w
      exact ⟨cycle, stats, some filled, w', hstore⟩

variable {layout : Layout} {records : RecordBuffer} {s : Session β}

/-- Whatever it makes of its readout, a cycle leaves a record buffer with the slots that it had. -/
theorem settle_leaves (layout : Layout) (hrecords : s.records = some records) (bytes : Bytes)
    (timestamp : UInt64) (w : ω) :
    ∃ cycle stats left more w', settle layout records bytes timestamp (s, w) =
        .ok cycle ({ s with stats, records := some left }, w') ∧
      left.contents = { records.contents with records := more } := by
  by_cases hbytes : bytes = []
  · refine ⟨.idle, s.stats.idle, records, records.records, w, ?_, rfl⟩
    rw [settle, if_pos hbytes, ← hrecords]
  simp only [settle, if_neg hbytes]
  obtain ⟨fault, k, -, hfilling⟩ := records.clear.fill_filling layout.kind bytes
  have hfilled := hfilling.contents
  rw [RecordBuffer.contents_clear] at hfilled
  cases hfill : records.clear.fill layout.kind bytes with
  | mk result filled =>
    rw [hfill] at hfilled
    cases result with
    | error e =>
      refine ⟨.lost e, _, filled.clear, [], w, rfl, ?_⟩
      rw [RecordBuffer.contents_clear, hfilled]
      rfl
    | ok events =>
      obtain ⟨cycle, stats, w', -, hstore, -⟩ := store_logged layout filled bytes.length events
        timestamp { s with stats := s.stats.found bytes.length events, records := some filled } w
      exact ⟨cycle, stats, filled, _, w', hstore, hfilled⟩

/-- A readout that can be stored is written, or its write fails. -/
theorem settle_storable (hrecords : s.records = some records)
    (hsize : records.elementSize = layout.elementSize) {bytes : Bytes} {raws : List RawEvent}
    (h : Storable layout records.capacity bytes raws) {timestamp : UInt64} {w : ω} {cycle : Cycle}
    {left : Session β × ω}
    (hcycle : settle layout records bytes timestamp (s, w) = .ok cycle left) :
    cycle = .written bytes.length raws.length ∨ ∃ e, cycle = .writeFailed e := by
  obtain ⟨raws', filled, stats, hstorable, -, hsettle⟩ | ⟨-, -, -, -, hnot, -⟩ :=
    settle_cases hrecords hsize bytes timestamp
  · obtain ⟨cycle', stats', w', hwritten, hstore, -⟩ := store_logged layout filled bytes.length
      raws'.length timestamp { s with stats, records := some filled } w
    obtain ⟨rfl, -⟩ := EStateM.Result.ok.inj (((hsettle w).trans hstore).symm.trans hcycle)
    rwa [← hstorable.eq_of_decode h.decoded]
  · exact absurd h (hnot raws)

/-- A readout whose first event has the wrong size is lost with it. -/
theorem settle_refused {bytes : Bytes} {raw : RawEvent} {raws : List RawEvent} {size : Nat}
    (hbytes : bytes ≠ []) (hdecode : decode bytes = .ok raw :: raws.map .ok)
    (hsize : (Event.ofRaw layout.kind raw).elementSize = size) (hne : size ≠ records.elementSize)
    {timestamp : UInt64} {w : ω} {cycle : Cycle} {left : Session β × ω}
    (hcycle : settle layout records bytes timestamp (s, w) = .ok cycle left) :
    cycle = .lost (.buffer (.elementSize records.elementSize size)) := by
  simp only [settle, if_neg hbytes, RecordBuffer.fill_refused hdecode hsize hne] at hcycle
  exact (EStateM.Result.ok.inj hcycle).1.symm

variable {V : FunctionId → Option UInt32 → UInt32 → Prop}

/-- A buffer that holds the records of the events, in slots of the layout's size and behind no
header, is what is to be handed over. -/
theorem handedOver_of_contents (hlayout : layout.MadeOf V)
    (hsize : records.elementSize = layout.elementSize) (hheader : records.headerSize = 0)
    {slots : Nat} {bytes : Bytes} {raws : List RawEvent} (h : Storable layout slots bytes raws)
    {filled : RecordBuffer} (hfilled : filled.contents =
      { records.contents with records := RawEvent.records layout.kind raws })
    (id timestamp : UInt64) :
    HandedOver layout raws id timestamp [.writeBuffer layout.kind filled id timestamp] := by
  have hempty : records.header = [] := List.eq_nil_of_length_eq_zero (by simpa using hheader)
  have hrecords : RawEvent.records layout.kind raws =
      (raws.map (Event.ofRaw layout.kind)).map Event.encode := by
    rw [RawEvent.records, List.map_map]
    rfl
  have hcapacity : filled.capacityBytes = records.capacityBytes :=
    congrArg Contents.capacityBytes hfilled
  have hholds := filled.holds_contents
  rw [hfilled, hrecords] at hholds
  simp only [RecordBuffer.contents, hsize, hempty, ← hcapacity] at hholds
  have hraw : filled.rawBytes = Event.encodeAll (raws.map (Event.ofRaw layout.kind)) :=
    hholds.rawBytes
  refine ⟨filled, rfl, hholds, hraw, ?_⟩
  have hevent : ∀ e ∈ raws.map (Event.ofRaw layout.kind),
      e.kind = layout.kind ∧ e.elementSize = layout.elementSize := by
    intro e he
    obtain ⟨raw, hraw, rfl⟩ := List.mem_map.1 he
    exact ⟨Event.kind_ofRaw _ _, h.fit.size raw hraw⟩
  rw [hraw]
  refine Event.ofUnit_encodeAll hholds.elementSize_pos (fun e he => (hevent e he).1)
    (fun e he => (hevent e he).2) fun e he => ?_
  exact hlayout.samples_lt (hevent e he).1 (hevent e he).2

/-- Behind its read a cycle hands over what can be stored, and nothing else. -/
theorem settle_hands_over (hlayout : layout.MadeOf V)
    (hsize : records.elementSize = layout.elementSize) (hheader : records.headerSize = 0)
    (hrecords : s.records = some records) (bytes : Bytes) (timestamp : UInt64) (w : ω) :
    ∃ cycle s' w' calls,
      settle layout records bytes timestamp (s, w) = .ok cycle (s', w') ∧
      settle layout records bytes timestamp (s, LoggedWriter.mk w []) =
        .ok cycle (s', ⟨w', calls⟩) ∧
      ((∃ raws, Storable layout records.capacity bytes raws ∧
          HandedOver layout raws s.id timestamp calls ∧
          (cycle = .written bytes.length raws.length ∨ ∃ e, cycle = .writeFailed e)) ∨
        ((∀ raws, ¬Storable layout records.capacity bytes raws) ∧ calls = [] ∧
          (cycle = .idle ∨ ∃ e, cycle = .lost e))) := by
  obtain ⟨raws, filled, stats, hstorable, hfilled, hsettle⟩ |
    ⟨cycle, left, stats, more, hnot, hcycle, -, hsettle⟩ :=
    settle_cases hrecords hsize bytes timestamp
  · obtain ⟨cycle, stats', w', hcycle, hstore, hlogged⟩ := store_logged layout filled bytes.length
      raws.length timestamp { s with stats, records := some filled } w
    refine ⟨cycle, _, w', _, (hsettle w).trans hstore, (hsettle _).trans hlogged, .inl ?_⟩
    exact ⟨raws, hstorable,
      handedOver_of_contents hlayout hsize hheader hstorable hfilled s.id timestamp, hcycle⟩
  · exact ⟨cycle, _, w, [], hsettle w, hsettle _, .inr ⟨hnot, rfl, hcycle⟩⟩

end Session

end PulseDaq
