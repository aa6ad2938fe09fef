import PulseDaq.Board.Simulated
import PulseDaq.Proofs.Readout.Faults
import PulseDaq.Proofs.Session.Equipment
import PulseDaq.Proofs.Session.Lasting

/-!
# Record buffers that never run full

A session sizes its record buffer by the readout buffer: one slot for every stride that a readout
has room for. Events do not share bytes, whether the readout is well-formed or not, so there are no
more of them than slots, unless a group has shorter events than the layout says.

* `Board.Refills`: the board puts into a readout buffer only what fits. Both boards do so
  (`ScriptedBoard.refills`, `SimulatedBoard.refills`).
* `Session.Sized`: the buffers of a session go together. Each operation keeps that
  (`SessionCall.perform_sized`), also one that fails, and so does a run (`SessionRun.run_sized`).
* `SessionRun.acquire_never_full`: no cycle is lost for want of slots.
-/

namespace PulseDaq

/-! ## Readout buffers -/

namespace ReadoutBuffer

/-- The buffer was filled anew, or left as it was. -/
def Refilled (old new : ReadoutBuffer) : Prop :=
  new = old ∨ ∃ bytes, old.fill bytes = .ok new

/-- A buffer of this capacity, with no more bytes than that. -/
def Within (capacity : Nat) (b : ReadoutBuffer) : Prop :=
  b.capacity = capacity ∧ b.bytes.length ≤ capacity

theorem refilled_clear (b : ReadoutBuffer) : b.Refilled b.clear :=
  .inr ⟨[], if_neg (Nat.not_lt_zero _)⟩

theorem Refilled.within {old new : ReadoutBuffer} {capacity : Nat} (h : old.Refilled new)
    (hold : old.Within capacity) : new.Within capacity := by
  obtain rfl | ⟨bytes, hfill⟩ := h
  · exact hold
  · unfold fill at hfill
    split at hfill
    · cases hfill
    next hfits =>
      cases hfill
      exact ⟨hold.1, hold.1 ▸ Nat.le_of_not_lt hfits⟩

end ReadoutBuffer

/-- A board hands out readout buffers that hold no more than they have room for, and fills them on
every read, as often as it likes, also if the read fails. -/
structure Board.Refills (β : Type) [Board β] : Prop where
  allocate : Triple (fun _ => True) (Board.allocate (β := β))
    (fun buffer _ => buffer.Within buffer.capacity) fun _ _ => True
  read : ∀ buffer, Triple (fun s : β × ReadoutBuffer => s.2 = buffer) Board.read
    (fun _ s => buffer.Refilled s.2) fun _ s => buffer.Refilled s.2

/-- Reading does not change the size of a buffer. -/
theorem Board.Refills.read_within {β : Type} [Board β] (h : Board.Refills β) (capacity : Nat) :
    Triple (fun s : β × ReadoutBuffer => True ∧ s.2.Within capacity) Board.read
      (fun _ s => True ∧ s.2.Within capacity) fun _ s => True ∧ s.2.Within capacity := by
  rintro s ⟨-, hs⟩
  exact ((h.read s.2).imp (fun _ _ hleft => ⟨trivial, hleft.within hs⟩)
    fun _ _ hleft => ⟨trivial, hleft.within hs⟩) s rfl

theorem ScriptedBoard.readInto_refills (old : ReadoutBuffer) :
    Triple (fun s => s.2 = old) readInto (fun _ s => old.Refilled s.2)
      fun _ s => old.Refilled s.2 := by
  rintro ⟨b, buffer⟩ rfl
  unfold readInto
  cases hnote : note .read b with
  | error e b₁ =>
    simp only [hnote]
    exact .inl rfl
  | ok _ b₁ =>
    simp only [hnote]
    cases b₁.readouts with
    | nil => exact buffer.refilled_clear
    | cons bytes rest =>
      dsimp only
      cases hfill : buffer.fill bytes with
      | error e => exact .inl rfl
      | ok filled => exact .inr ⟨bytes, hfill⟩

theorem ScriptedBoard.refills : Board.Refills ScriptedBoard where
  allocate := .bind (Preserves.anything _) fun _ =>
    .bind_get fun _ _ => .pure _ fun _ _ => ⟨rfl, Nat.zero_le _⟩
  read := readInto_refills

/-- A readout that is too large leaves the buffer empty. -/
theorem SimulatedBoard.readInto_refills (old : ReadoutBuffer) :
    Triple (fun s => s.2 = old) readInto (fun _ s => old.Refilled s.2)
      fun _ s => old.Refilled s.2 := by
  rintro ⟨b, buffer⟩ rfl
  unfold readInto
  cases hlink : link b with
  | error e b₁ =>
    simp only [hlink]
    exact .inl rfl
  | ok _ b₁ =>
    simp only [hlink]
    cases readout (b₁.monitor.reads + 1) _ with
    | mk bytes b₂ =>
      dsimp only
      cases hfill : buffer.fill bytes with
      | error e => exact buffer.refilled_clear
      | ok filled => exact .inr ⟨bytes, hfill⟩

theorem SimulatedBoard.refills : Board.Refills SimulatedBoard where
  allocate := .bind_get fun _ _ => .pure _ fun _ _ => ⟨rfl, Nat.zero_le _⟩
  read := readInto_refills

/-! ## The invariant -/

namespace Session

variable {β ω : Type} {s : Session β} {options : SessionOptions}

/-- A session that has a readout buffer is open, and has a layout and a record buffer. If no option
gives the size of that, it follows from both. -/
structure Sized (options : SessionOptions) (s : Session β) : Prop where
  buffers : ∀ readout, s.readout = some readout → s.state ≠ .closed ∧
    readout.Within readout.capacity ∧ ∃ layout records, s.layout = some layout ∧
      s.records = some records ∧
      (options.bufferEvents = none → records.capacity = defaultSlots layout readout.capacity)
  options : s.options = options

/-- Nothing is asked of a session without a readout buffer. -/
theorem sized_of_none (hoptions : s.options = options) (hreadout : s.readout = none) :
    s.Sized options where
  buffers _ h := by cases hreadout.symm.trans h
  options := hoptions

/-- Whatever buffers the session has go together. -/
theorem Sized.together (h : s.Sized options) {layout : Layout} {readout : ReadoutBuffer}
    {records : RecordBuffer} (hlayout : s.layout = some layout)
    (hreadout : s.readout = some readout) (hrecords : s.records = some records) :
    readout.Within readout.capacity ∧
      (options.bufferEvents = none →
        records.capacity = defaultSlots layout readout.capacity) := by
  obtain ⟨-, hwithin, layout', records', hlayout', hrecords', hcapacity⟩ :=
    h.buffers readout hreadout
  obtain rfl := Option.some.inj (hlayout'.symm.trans hlayout)
  obtain rfl := Option.some.inj (hrecords'.symm.trans hrecords)
  exact ⟨hwithin, hcapacity⟩

/-- A closed session has no readout buffer. -/
theorem Sized.readout_closed (h : s.Sized options) (hstate : s.state = .closed) :
    s.readout = none :=
  Option.eq_none_iff_forall_ne_some.2 fun readout hreadout =>
    (h.buffers readout hreadout).1 hstate

/-- Buffers come together, for the layout of the session, and the layout is not changed before the
session has given up the readout buffer. -/
theorem lasting_sized :
    Lasting (fun buffer => buffer.Within buffer.capacity) (Sized (β := β) options) where
  blind _ _ _ h := ⟨h.buffers, h.options⟩
  initialised _ _ hclosed h := sized_of_none h.options (h.readout_closed hclosed)
  supplied s layout readout records h hlayout hreadout hrecords := by
    refine ⟨?_, h.options⟩
    rintro _ ⟨rfl⟩
    rw [h.options] at hrecords
    exact ⟨nofun, hreadout, layout, records, hlayout, rfl,
      (recordsFor_eq_ok hrecords).2.2⟩
  running _ _ hopen h :=
    ⟨fun readout hreadout => ⟨hopen, (h.buffers readout hreadout).2⟩, h.options⟩
  gaveUp _ _ _ h := sized_of_none h.options rfl

variable [Board β]

/-- A cycle, whatever becomes of it, changes no size. -/
theorem acquire_sized [DataWriter ω] (hβ : Board.Refills β) (timestamp : UInt64) :
    Preserves (fun s : Session β × ω => s.1.Sized options) (acquire timestamp) := by
  rintro ⟨s, w⟩ hs
  obtain hrefused | ⟨hstate, layout, readout, records, hlayout, hreadout, hrecords⟩ :=
    acquire_cases s timestamp w
  · rw [hrefused]
    exact hs
  have hopen := (hs.buffers readout hreadout).1
  obtain ⟨hwithin, hcapacity⟩ := hs.together hlayout hreadout hrecords
  have hread := hβ.read_within readout.capacity
  refine (acquire_leaves (R := fun _ => True) (A := ReadoutBuffer.Within readout.capacity)
    (B := ReadoutBuffer.Within readout.capacity) hread hstate hlayout hreadout hrecords hwithin
    trivial timestamp w).imp ?_ ?_ (s, w) rfl
  · rintro _ ⟨_, _⟩ ⟨board, buffer, waited, stats, filled, more, -, ⟨hsame, hfits⟩, hfilled, rfl⟩
    refine ⟨?_, hs.options⟩
    rintro _ ⟨rfl⟩
    have hslots : filled.capacity = records.capacity := by
      rw [← filled.capacity_contents, ← records.capacity_contents, hfilled]
      rfl
    rw [← hsame] at hfits hcapacity
    exact ⟨hopen, ⟨rfl, hfits⟩, layout, filled, hlayout, rfl, fun h => hslots.trans (hcapacity h)⟩
  · rintro _ ⟨_, _⟩ ⟨board, buffer, waited, -, ⟨hsame, hfits⟩, rfl⟩
    refine ⟨?_, hs.options⟩
    rintro _ ⟨rfl⟩
    rw [← hsame] at hfits hcapacity
    exact ⟨hopen, ⟨rfl, hfits⟩, layout, records, hlayout, hrecords, hcapacity⟩

end Session

/-- Every operation keeps the sizes of the buffers together, whatever its outcome. -/
theorem SessionCall.perform_sized {β ω : Type} [Board β] [DataWriter ω] {options : SessionOptions}
    (hβ : Board.Refills β) (c : SessionCall) :
    Preserves (fun s : Session β × ω => s.1.Sized options) c.perform :=
  c.perform_lasting Session.lasting_sized hβ.allocate fun timestamp _ =>
    Session.acquire_sized hβ timestamp

/-- A run from a fresh session keeps the sizes of the buffers together. -/
theorem SessionRun.run_sized {β ω : Type} [Board β] [DataWriter ω] (hβ : Board.Refills β)
    (board : β) (options : SessionOptions) (writer : ω) (calls : List SessionCall) :
    ((ofBoard board options writer).run calls).session.Sized options :=
  run_keeps (fun c _ => c.perform_sized hβ) _ (Session.sized_of_none rfl rfl)

/-! ## Main result -/

/-- A cycle is lost for want of slots only if its readout has more events than there are slots. -/
theorem Session.settle_full {β ω : Type} [DataWriter ω] {layout : Layout} {records : RecordBuffer}
    {bytes : Bytes} {timestamp : UInt64} {s : Session β} {w : ω} {n : Nat} {left : Session β × ω}
    (hcycle : settle layout records bytes timestamp (s, w) =
      .ok (.lost (.buffer (.capacityExceeded n))) left) :
    records.capacity < (decodedEvents bytes).length := by
  by_cases hbytes : bytes = []
  · simp [settle, hbytes] at hcycle
  simp only [settle, if_neg hbytes] at hcycle
  obtain ⟨fault, k, -, hfilling⟩ := records.clear.fill_filling layout.kind bytes
  cases hfill : records.clear.fill layout.kind bytes with
  | mk result filled =>
    rw [hfill] at hfilling hcycle
    cases result with
    | ok events =>
      obtain ⟨cycle, stats, w', hstored, hstore, -⟩ := store_logged layout filled bytes.length
        events timestamp
        { s with stats := s.stats.found bytes.length events, records := some filled } w
      obtain ⟨rfl, -⟩ := EStateM.Result.ok.inj (hstore.symm.trans hcycle)
      obtain h | ⟨e, h⟩ := hstored
      · cases h
      · cases h
    | error e =>
      cases hcycle
      exact Nat.lt_of_lt_of_eq (hfilling.full rfl) (Nat.zero_add _)

/-- Let a fresh session, whose options say nothing about its record buffer, go through any
operations, with whatever outcomes, on a board that puts readouts into the readout buffer by filling
it. A cycle that answers then has a record buffer of at least as many slots as the readout buffer
has room for strides of the layout. If the bytes that it has read, well-formed or not, yield only
events that are no shorter than a stride, they yield no more than that; so the cycle is not lost for
want of slots. -/
theorem SessionRun.acquire_never_full {β ω : Type} [Board β] [DataWriter ω] (hβ : Board.Refills β)
    (board : β) (options : SessionOptions) (writer : ω) (calls : List SessionCall)
    (r : SessionRun β ω) (timestamp : UInt64) (cycle : Cycle) (s : Session β × ω)
    (hoptions : options.bufferEvents = none)
    (hr : r = (SessionRun.ofBoard board options writer).run calls)
    (hcycle : Session.acquire timestamp (r.session, r.writer) = .ok cycle s) :
    ∃ layout readout records buffer left, r.session.layout = some layout ∧
      r.session.readout = some readout ∧ r.session.records = some records ∧
      Session.retried (Session.readInto readout) r.session = .ok buffer left ∧
      buffer.capacity = readout.capacity ∧
      readout.capacity / (4 * layout.format.stride) ≤ records.capacity ∧
      ((∀ e ∈ decodedEvents buffer.bytes, layout.format.stride ≤ e.format.stride) →
        (decodedEvents buffer.bytes).length ≤ readout.capacity / (4 * layout.format.stride) ∧
          ∀ n, cycle ≠ .lost (.buffer (.capacityExceeded n))) := by
  have hsized : r.session.Sized options := hr ▸ run_sized hβ board options writer calls
  obtain hrefused | ⟨hstate, layout, readout, records, hlayout, hreadout, hrecords⟩ :=
    Session.acquire_cases r.session timestamp r.writer
  · cases hrefused.symm.trans hcycle
  obtain ⟨hwithin, hcapacity⟩ := hsized.together hlayout hreadout hrecords
  have hslots : readout.capacity / (4 * layout.format.stride) ≤ records.capacity := by
    rw [hcapacity hoptions]
    exact Nat.le_max_left _ _
  have hread := Session.read_triple (R := fun _ => True)
    (A := ReadoutBuffer.Within readout.capacity) (B := ReadoutBuffer.Within readout.capacity)
    (hβ.read_within readout.capacity) r.session readout r.session
    (Session.reading_self hreadout hwithin trivial)
  rw [Session.acquire_eq hstate hlayout hreadout hrecords] at hcycle
  cases hrun : Session.retried (Session.readInto readout) r.session with
  | error e left =>
    rw [hrun] at hcycle
    cases hcycle
  | ok buffer left =>
    rw [hrun] at hread hcycle
    obtain ⟨⟨hsame, hfits⟩, -⟩ := hread
    refine ⟨layout, readout, records, buffer, left, hlayout, hreadout, hrecords, hrun, hsame,
      hslots, fun hstride => ?_⟩
    have hpos : 0 < layout.format.stride :=
      Nat.lt_of_lt_of_le Nat.zero_lt_two layout.format.two_le_stride
    have hcount : (decodedEvents buffer.bytes).length ≤
        readout.capacity / (4 * layout.format.stride) :=
      calc
        _ ≤ buffer.bytes.length / (4 * layout.format.stride) :=
          length_decodedEvents_le hpos hstride
        _ ≤ _ := Nat.div_le_div_right hfits
    refine ⟨hcount, fun n hlost => ?_⟩
    subst hlost
    have hfull := Session.settle_full hcycle
    omega

/-- A board with five events in group 6. -/
def fiveEvents : BoardFrame where
  header := 0xA000000E
  maskWord := 64
  groups := [
    { index := ⟨6, by decide⟩
      header := 0x8000000C
      formatWord := 0x60000000
      body := [1, 7, 2, 7, 3, 7, 4, 7, 5, 7]
      header_marked := by decide
      header_size := by decide
      format_marked := by decide
      stride_dvd := by decide }]
  header_magic := by decide
  header_size := by decide
  groups_masked := by decide

/-- These, and a word behind them that is no board. -/
def strayBehindFive : Bytes :=
  Bytes.ofWords (boardsWords [fiveEvents] ++ [6])

/-- A board with one group that reads just this, into a buffer with room for eight strides. -/
def boardGoneAstray : ScriptedBoard where
  registers := [((.groupEnableMask, none), 64)]
  readouts := [strayBehindFive]
  readoutBytes := 64

/-- A session of it that acquires. -/
def goneAstray : SessionRun ScriptedBoard Totals :=
  (SessionRun.ofBoard boardGoneAstray {} {}).run [.initialise, .prepare, .start 0]

/-- Its first cycle reads five events and an error behind them. -/
theorem goneAstray_never_full :
    (∃ e, decode strayBehindFive = (decodedEvents strayBehindFive).map .ok ++ [.error e]) ∧
      (decodedEvents strayBehindFive).length = 5 ∧
      ∃ cycle s, Session.acquire 1 (goneAstray.session, goneAstray.writer) = .ok cycle s ∧
        5 ≤ 64 / (4 * 2) ∧ ∀ n, cycle ≠ .lost (.buffer (.capacityExceeded n)) := by
  have hfault : FirstFault (Bytes.toWords strayBehindFive).toList (boardsEvents [fiveEvents] ++ [])
      (.boardLength 56 1 1) := by
    rw [strayBehindFive, Bytes.toWords_ofWords]
    exact .behind [fiveEvents] (.short 6)
  have hdecode : decode strayBehindFive =
      (boardsEvents [fiveEvents] ++ []).map .ok ++ [.error (.boardLength 56 1 1)] :=
    decode_of_firstFault (by decide) hfault
  have hevents : decodedEvents strayBehindFive = boardsEvents [fiveEvents] := by
    rw [decodedEvents, hdecode]
    rfl
  have hstate : goneAstray.session.state = .acquiring := by decide +kernel
  have hreadout : goneAstray.session.readout = some ⟨64, []⟩ := by decide +kernel
  have hlayout : goneAstray.session.layout =
      some (.ofRegisters false false 0 [(6, ⟨0, 0, 0, 0⟩)]) := by
    decide +kernel
  obtain ⟨records, hrecords⟩ := Option.isSome_iff_exists.1
    (show goneAstray.session.records.isSome by decide +kernel)
  obtain ⟨left, hleft⟩ : ∃ left, Session.retried (Session.readInto ⟨64, []⟩) goneAstray.session =
      .ok ⟨64, strayBehindFive⟩ left :=
    exists_of_run' (by decide +kernel)
  -- The run is evaluated up to the read; what becomes of the bytes is what the theorem says.
  have hrun := Session.acquire_eq hstate hlayout hreadout hrecords 1 goneAstray.writer
  rw [hleft] at hrun
  obtain ⟨cycle, stats, records', w', hsettle⟩ := Session.settle_answers _ records
    strayBehindFive 1 left goneAstray.writer
  have hcycle := hrun.trans hsettle
  obtain ⟨layout, readout, -, buffer, _, hlayout', hreadout', -, hread, -, -, hroom⟩ :=
    SessionRun.acquire_never_full ScriptedBoard.refills boardGoneAstray {} ({} : Totals) _
      goneAstray 1 cycle _ rfl rfl hcycle
  obtain rfl := Option.some.inj (hlayout'.symm.trans hlayout)
  obtain rfl := Option.some.inj (hreadout'.symm.trans hreadout)
  obtain ⟨rfl, -⟩ := EStateM.Result.ok.inj (hread.symm.trans hleft)
  obtain ⟨hcount, hnever⟩ := hroom (by rw [hevents]; decide)
  rw [hevents] at hcount
  exact ⟨⟨_, by rw [hevents, hdecode, List.append_nil]⟩, by rw [hevents]; decide, cycle, _, hcycle,
    hcount, hnever⟩

end PulseDaq
