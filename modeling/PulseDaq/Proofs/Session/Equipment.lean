import PulseDaq.Proofs.Readout.RoundTrip
import PulseDaq.Proofs.Session.Buffers
import PulseDaq.Proofs.Session.Cycles
import PulseDaq.Proofs.Session.Runs

/-!
# From the opening of a session to its close

What a session is equipped with, from the moment at which it is opened until someone tries to close
it: first a layout that is made of values of its board, then a readout buffer and a record buffer
that are made for this layout. No operation in between takes any of it away, and no cycle leaves
anything in the record buffer that could come back in a later one.

* `BoardContract`: what is known of a board, maybe nothing (`BoardContract.anything`).
* `Session.Equipped`: the invariant. Each operation but `close` and, on boards that it changes,
  `configure` keeps it (`SessionCall.perform_equipped`).
* `Session.acquire_leaves`: what a cycle leaves behind, whatever it comes to.
* `SessionRun.acquire_hands_over`: a cycle calls the writer exactly if its readout can be stored,
  and then with the records of this readout.
-/

namespace PulseDaq

/-- What is known of a board: `R` of its state, `V` of the values that it answers, `A` of its
readout buffers, and `B` of a readout buffer that was just read into. -/
structure BoardContract (β : Type) [Board β] (R : β → Prop)
    (V : FunctionId → Option UInt32 → UInt32 → Prop) (A B : ReadoutBuffer → Prop) : Prop where
  get : ∀ f i, Triple R (Board.get f i) (fun v b => V f i v ∧ R b) fun _ => R
  allocate : Triple R (Board.allocate (β := β)) (fun buffer b => A buffer ∧ R b) fun _ => R
  read : Triple (fun s : β × ReadoutBuffer => R s.1 ∧ A s.2) Board.read
    (fun _ s => R s.1 ∧ B s.2) fun _ s => R s.1 ∧ A s.2
  fresh : ∀ buffer, B buffer → A buffer
  free : ∀ buffer, Preserves R (Board.free (β := β) buffer)
  start : Preserves R (Board.start (β := β))
  stop : Preserves R (Board.stop (β := β))

/-- Of any board this much is known. -/
theorem BoardContract.anything (β : Type) [Board β] :
    BoardContract β (fun _ => True) (fun _ _ _ => True) (fun _ => True) fun _ => True where
  get _ _ := Triple.of_run (fun _ _ _ _ _ => ⟨trivial, trivial⟩) fun _ _ _ _ _ => trivial
  allocate := Triple.of_run (fun _ _ _ _ _ => ⟨trivial, trivial⟩) fun _ _ _ _ _ => trivial
  read := Triple.of_run (fun _ _ _ _ _ => ⟨trivial, trivial⟩) fun _ _ _ _ _ => ⟨trivial, trivial⟩
  fresh _ _ := trivial
  free _ := .anything _
  start := .anything _
  stop := .anything _

/-! ## The invariant -/

variable {V : FunctionId → Option UInt32 → UInt32 → Prop} {A B : ReadoutBuffer → Prop}
  {options : SessionOptions}

/-- A record buffer that was made for a layout, beside some readout buffer. -/
structure Layout.Slots (A : ReadoutBuffer → Prop) (options : SessionOptions) (l : Layout)
    (records : RecordBuffer) : Prop where
  elementSize : records.elementSize = l.elementSize
  headerSize : records.headerSize = 0
  capacity : ∃ readout, A readout ∧ (options.bufferEvents = none →
    records.capacity = Session.defaultSlots l readout.capacity)

/-- What a buffer holds does not matter to that. -/
theorem Layout.Slots.of_contents {l : Layout} {records left : RecordBuffer} {more : List Bytes}
    (h : l.Slots A options records)
    (hleft : left.contents = { records.contents with records := more }) :
    l.Slots A options left where
  elementSize := (congrArg Contents.elementSize hleft).trans h.elementSize
  headerSize := by
    have hheader : left.header = records.header := congrArg Contents.header hleft
    rw [← left.length_header, hheader, records.length_header, h.headerSize]
  capacity := by
    obtain ⟨readout, hA, hcapacity⟩ := h.capacity
    refine ⟨readout, hA, fun hnone => ?_⟩
    rw [← hcapacity hnone, ← left.capacity_contents, ← records.capacity_contents, hleft]
    rfl

namespace Session

variable {β ω : Type} {s : Session β} {R : β → Prop}

/-- The session has a layout and the buffers for it. -/
def Stocked (V : FunctionId → Option UInt32 → UInt32 → Prop) (A : ReadoutBuffer → Prop)
    (options : SessionOptions) (s : Session β) : Prop :=
  ∃ layout readout records, s.layout = some layout ∧ s.readout = some readout ∧
    s.records = some records ∧ layout.MadeOf V ∧ A readout ∧ layout.Slots A options records

/-- The session has what its state calls for. -/
def Equipped (V : FunctionId → Option UInt32 → UInt32 → Prop) (A : ReadoutBuffer → Prop)
    (options : SessionOptions) (s : Session β) : Prop :=
  s.options = options ∧ match s.state with
    | .closed => True
    | .initialised => ∃ layout, s.layout = some layout ∧ layout.MadeOf V
    | .ready | .acquiring => s.Stocked V A options

theorem equipped_closed (hstate : s.state = .closed) :
    s.Equipped V A options ↔ s.options = options := by
  simp [Equipped, hstate]

theorem equipped_initialised (hstate : s.state = .initialised) :
    s.Equipped V A options ↔
      s.options = options ∧ ∃ layout, s.layout = some layout ∧ layout.MadeOf V := by
  simp [Equipped, hstate]

theorem equipped_stocked (hstate : s.state = .ready ∨ s.state = .acquiring) :
    s.Equipped V A options ↔ s.options = options ∧ s.Stocked V A options := by
  obtain h | h := hstate
  · simp [Equipped, h]
  · simp [Equipped, h]

/-- The session is in a state, and equipped for it. -/
def At (V : FunctionId → Option UInt32 → UInt32 → Prop) (A : ReadoutBuffer → Prop)
    (options : SessionOptions) (state : SessionState) (s : Session β) : Prop :=
  s.state = state ∧ s.Equipped V A options

theorem blind_at (state : SessionState) : Blind (At (β := β) V A options state) :=
  fun _ _ _ h => h

theorem equipped_of_at {state : SessionState} (h : At V A options state s ∧ R s.board) :
    s.Equipped V A options ∧ R s.board :=
  ⟨h.1.2, h.2⟩

theorem require_equipped (op : SessionOperation) (state : SessionState) :
    Triple (fun s : Session β => s.Equipped V A options ∧ R s.board) (require op state)
      (fun _ s => At V A options state s ∧ R s.board)
      fun _ s => s.Equipped V A options ∧ R s.board :=
  (require_triple op state).imp (fun _ _ h => ⟨⟨h.1, h.2.1⟩, h.2.2⟩) fun _ _ h => h.2.2

section Calls

variable {α : Type} {c : EStateM BoardError β α} {state : SessionState}

/-- A call of the board without retries leaves the session where it is. -/
theorem once_at (hc : Preserves R c) :
    Triple (fun s => At V A options state s ∧ R s.board) (once (call c))
      (fun _ s => At V A options state s ∧ R s.board)
      fun _ s => s.Equipped V A options ∧ R s.board :=
  Triple.imp_error (once_keeps (blind_at state) hc) fun _ _ h => equipped_of_at h

/-- A call of the board with retries leaves the session where it is. -/
theorem retried_at (hc : Preserves R c) :
    Triple (fun s => At V A options state s ∧ R s.board) (retried (call c))
      (fun _ s => At V A options state s ∧ R s.board)
      fun _ s => s.Equipped V A options ∧ R s.board :=
  Triple.imp_error (retried_keeps (blind_at state) hc) fun _ _ h => equipped_of_at h

end Calls

/-! ## Before an acquisition -/

variable [Board β]

/-- A closed session gets a layout. -/
theorem initialise_equipped [DataWriter ω] (hB : BoardContract β R V A B) :
    Preserves (fun s : Session β × ω => s.1.Equipped V A options ∧ R s.1.board) initialise := by
  refine Triple.bind (alone_triple (require_equipped _ _)) fun _ => ?_
  have hblind : Blind fun s : Session β => At V A options .closed s := blind_at .closed
  have hgeometry := (geometry_triple hblind hB.get).imp_error fun _ _ h => equipped_of_at h
  refine .bind (alone_triple hgeometry) fun layout => .lift fun hlayout => .bind_get fun s₀ h₀ => ?_
  have hadd := Triple.imp_error (writing_keeps (DataWriter.addDigitizer (ω := ω) s₀.1.id)
    fun s : Session β => At V A options .closed s ∧ R s.board) fun _ _ h => equipped_of_at h
  refine .bind (.adaptExcept (hadd.pre ?_)) fun _ => ?_
  · rintro s rfl
    exact h₀
  · rintro ⟨s, w⟩ ⟨⟨hstate, hs⟩, hR⟩
    exact ⟨⟨(equipped_closed hstate).1 hs, layout, rfl, hlayout⟩, hR⟩

/-- An initialised session gets the buffers for its layout. -/
theorem prepare_equipped (hB : BoardContract β R V A B) :
    Preserves (fun s : Session β => s.Equipped V A options ∧ R s.board) prepare := by
  refine Triple.bind (require_equipped _ _) fun _ => .bind_get fun s₀ h₀ => ?_
  obtain ⟨⟨hstate, hequipped⟩, hR⟩ := h₀
  obtain ⟨hoptions, layout, hlayout, hmade⟩ := (equipped_initialised hstate).1 hequipped
  simp only [hlayout]
  have hblind : Blind fun s : Session β =>
      At V A options .initialised s ∧ s.layout = some layout :=
    fun _ _ _ h => h
  have hkept : ∀ s : Session β,
      (At V A options .initialised s ∧ s.layout = some layout) ∧ R s.board →
      s.Equipped V A options ∧ R s.board :=
    fun _ h => ⟨h.1.1.2, h.2⟩
  have hallocate := (once_answer hblind hB.allocate).imp_error fun _ => hkept
  refine .bind (hallocate.pre ?_) fun readout => .lift fun hA => .ite (fun _ => ?_) fun _ => ?_
  · rintro s rfl
    exact ⟨⟨⟨hstate, hequipped⟩, hlayout⟩, hR⟩
  · have hfree := Triple.imp_error (once_keeps hblind (hB.free readout)) fun _ => hkept
    exact .bind hfree fun _ => .throw _ hkept
  refine .bind (.adaptExcept (.ofExcept _ fun _ s _ => hkept s)) fun records =>
    .lift fun hrecords => .modify ?_
  rintro s ⟨⟨⟨hstate', hs⟩, hlayout'⟩, hR'⟩
  obtain ⟨hsize, hheader, hcapacity⟩ := recordsFor_eq_ok hrecords
  have hslots : layout.Slots A options records :=
    ⟨hsize, hheader, readout, hA, hoptions ▸ hcapacity⟩
  exact ⟨⟨((equipped_initialised hstate').1 hs).1, layout, readout, records, hlayout', rfl, rfl,
    hmade, hA, hslots⟩, hR'⟩

/-! ## Acquisition -/

/-- Starting the board takes nothing away. -/
theorem poll_equipped (hB : BoardContract β R V A B) :
    Preserves (fun s : Session β => s.Equipped V A options ∧ R s.board) poll := by
  have hstatus : Preserves R (Board.acquisitionStatus (β := β)) :=
    .bind ((hB.get _ _).imp (fun _ _ h => h.2) fun _ _ h => h) fun _ => .pure _
  refine Triple.bind (require_equipped _ _) fun _ => .bind (retried_at hstatus) fun status => ?_
  refine .ite (fun _ => .pure _ fun _ h => equipped_of_at h) fun _ => ?_
  refine .bind (once_at hB.start) fun _ => ?_
  rintro s ⟨⟨hstate, hs⟩, hR⟩
  exact ⟨(equipped_stocked (.inl hstate)).1 hs, hR⟩

theorem start_equipped (hB : BoardContract β R V A B) (patience : Nat) :
    Preserves (fun s : Session β => s.Equipped V A options ∧ R s.board) (start patience) := by
  induction patience with
  | zero => exact poll_equipped hB
  | succ patience ih =>
    exact .bind (poll_equipped hB) fun _ => .ite (.pure _)
      (.bind_get fun _ => .bind (.modify fun _ h => h) fun _ => ih)

theorem stop_equipped (hB : BoardContract β R V A B) :
    Preserves (fun s : Session β => s.Equipped V A options ∧ R s.board) stop := by
  refine Triple.bind (require_equipped _ _) fun _ => .bind (retried_at hB.stop) fun _ => .modify ?_
  rintro s ⟨⟨hstate, hs⟩, hR⟩
  exact ⟨(equipped_stocked (.inr hstate)).1 hs, hR⟩

/-! ## Cycles -/

/-- What a read may change. -/
def BehindRead (s₀ s : Session β) : Prop :=
  ∃ board readout waited, s = { s₀ with board, readout, waited }

/-- A read has begun and nothing has been read yet. -/
def Reading (R : β → Prop) (A : ReadoutBuffer → Prop) (s₀ s : Session β) : Prop :=
  BehindRead s₀ s ∧ (∃ readout, s.readout = some readout ∧ A readout) ∧ R s.board

omit [Board β] in
theorem reading_self {readout : ReadoutBuffer} (hreadout : s.readout = some readout)
    (hA : A readout) (hR : R s.board) : Reading R A s s :=
  ⟨⟨s.board, s.readout, s.waited, rfl⟩, ⟨readout, hreadout, hA⟩, hR⟩

section Reads

variable
  (hread : Triple (fun s : β × ReadoutBuffer => R s.1 ∧ A s.2) Board.read (fun _ s => R s.1 ∧ B s.2)
    fun _ s => R s.1 ∧ A s.2)
include hread

/-- A read changes the readout buffer, but not what is known of such buffers. -/
theorem readInto_triple (s₀ : Session β) (buffer : ReadoutBuffer) :
    Triple (Reading R A s₀) (readInto buffer)
      (fun readout s => B readout ∧ BehindRead s₀ s ∧ s.readout = some readout ∧ R s.board)
      fun _ => Reading R A s₀ := by
  rintro s ⟨⟨board, old, waited, rfl⟩, ⟨readout, rfl, hA⟩, hR⟩
  have hrun := hread (board, readout) ⟨hR, hA⟩
  simp only [readInto, Option.getD_some]
  cases h : Board.read (board, readout) with
  | ok _ left =>
    rw [h] at hrun
    exact ⟨hrun.2, ⟨left.1, some left.2, waited, rfl⟩, rfl, hrun.1⟩
  | error e left =>
    rw [h] at hrun
    exact ⟨⟨left.1, some left.2, waited, rfl⟩, ⟨left.2, rfl, hrun.2⟩, hrun.1⟩

theorem read_triple (s₀ : Session β) (buffer : ReadoutBuffer) :
    Triple (Reading R A s₀) (retried (readInto buffer))
      (fun readout s => B readout ∧ BehindRead s₀ s ∧ s.readout = some readout ∧ R s.board)
      fun _ => Reading R A s₀ := by
  refine (retried_triple (fun d => .modify ?_) (readInto_triple hread s₀ buffer)
    fun _ _ h => h).imp_error fun _ _ ⟨_, _, h⟩ => h
  rintro s ⟨⟨board, old, waited, rfl⟩, h⟩
  exact ⟨⟨board, old, _, rfl⟩, h⟩

/-- What a cycle leaves behind: what its read has left, the totals, and a record buffer with the
slots that it had. -/
theorem acquire_leaves [DataWriter ω] {layout : Layout} {readout : ReadoutBuffer}
    {records : RecordBuffer} (hstate : s.state = .acquiring) (hlayout : s.layout = some layout)
    (hreadout : s.readout = some readout) (hrecords : s.records = some records) (hA : A readout)
    (hR : R s.board) (timestamp : UInt64) (w : ω) :
    Triple (· = (s, w)) (acquire timestamp)
      (fun _ left => ∃ board buffer waited stats filled more, R board ∧ B buffer ∧
        filled.contents = { records.contents with records := more } ∧
        left.1 = { s with
          board, readout := some buffer, waited, stats, records := some filled })
      fun _ left => ∃ board buffer waited, R board ∧ A buffer ∧
        left.1 = { s with board, readout := some buffer, waited } := by
  rintro _ rfl
  rw [acquire_eq hstate hlayout hreadout hrecords]
  have hrun := read_triple hread s readout s (reading_self hreadout hA hR)
  cases h : retried (readInto readout) s with
  | error e s₁ =>
    rw [h] at hrun
    obtain ⟨⟨board, old, waited, rfl⟩, ⟨left, rfl, hleft⟩, hR₁⟩ := hrun
    exact ⟨board, left, waited, hR₁, hleft, rfl⟩
  | ok buffer s₁ =>
    rw [h] at hrun
    obtain ⟨hb, ⟨board, old, waited, rfl⟩, rfl, hR₁⟩ := hrun
    obtain ⟨cycle, stats, filled, more, w', hsettle, hfilled⟩ :=
      settle_leaves (s := { s with board, readout := some buffer, waited }) layout hrecords
        buffer.bytes timestamp w
    dsimp only
    rw [hsettle]
    exact ⟨board, buffer, waited, stats, filled, more, hR₁, hb, hfilled, rfl⟩

end Reads

/-- A cycle, whatever becomes of it, leaves the session equipped for the next one. -/
theorem acquire_equipped [DataWriter ω] (hB : BoardContract β R V A B) (timestamp : UInt64) :
    Preserves (fun s : Session β × ω => s.1.Equipped V A options ∧ R s.1.board)
      (acquire timestamp) := by
  rintro ⟨s, w⟩ ⟨hs, hR⟩
  by_cases hstate : s.state = .acquiring
  · obtain ⟨hoptions, layout, readout, records, hlayout, hreadout, hrecords, hmade, hA, hslots⟩ :=
      (equipped_stocked (.inr hstate)).1 hs
    refine (acquire_leaves hB.read hstate hlayout hreadout hrecords hA hR timestamp w).imp ?_ ?_
      (s, w) rfl
    · rintro _ ⟨_, _⟩ ⟨board, buffer, waited, stats, filled, more, hR', hb, hfilled, rfl⟩
      refine ⟨(equipped_stocked ?_).2 ⟨hoptions, layout, buffer, filled, hlayout, rfl, rfl, hmade,
        hB.fresh _ hb, hslots.of_contents hfilled⟩, hR'⟩
      exact .inr hstate
    · rintro _ ⟨_, _⟩ ⟨board, buffer, waited, hR', hA', rfl⟩
      refine ⟨(equipped_stocked ?_).2 ⟨hoptions, layout, buffer, records, hlayout, rfl, hrecords,
        hmade, hA', hslots⟩, hR'⟩
      exact .inr hstate
  · rw [acquire_outside hstate]
    exact ⟨hs, hR⟩

/-- Settings reach the board of a closed session only, so what a closed session has whatever its
values are, a configuration keeps. -/
theorem configure_keeps {I : Session β → Prop}
    (hset : ∀ f i v, Preserves R (Board.set (β := β) f i v))
    (hclosed : ∀ s : Session β, s.state = .closed →
      (I s ↔ s.options = options ∧ R s.board)) (settings : List Setting) :
    Preserves I (configure settings) := by
  have hblind : Blind fun s : Session β => s.state = .closed ∧ s.options = options :=
    fun _ _ _ h => h
  have hall : Preserves
      (fun s : Session β => (s.state = .closed ∧ s.options = options) ∧ R s.board)
      (settings.forM fun s => retried (call (Board.set s.function s.index s.value))) :=
    .forM (fun s => retried_keeps hblind (hset s.function s.index s.value)) settings
  have hkept (s : Session β) (h : (s.state = .closed ∧ s.options = options) ∧ R s.board) : I s :=
    (hclosed s h.1.1).2 ⟨h.1.2, h.2⟩
  refine Triple.bind ((require_triple .configure .closed).imp_error fun _ _ h => h.2.2) fun _ =>
    hall.conseq (fun s h => ?_) (fun _ => hkept) fun _ => hkept
  obtain ⟨hoptions, hR⟩ := (hclosed s h.1).1 h.2
  exact ⟨⟨h.1, hoptions⟩, hR⟩

end Session

/-! ## Runs -/

section Runs

variable {β ω : Type} [Board β] [DataWriter ω] {R : β → Prop}

/-- Any operation but a close keeps a session equipped, if settings change nothing that is known of
the board. -/
theorem SessionCall.perform_equipped (hB : BoardContract β R V A B) {c : SessionCall}
    (hclose : c ≠ .close)
    (hconfigure : ∀ settings, c = .configure settings →
      ∀ f i v, Preserves R (Board.set (β := β) f i v)) :
    Preserves (fun s : Session β × ω => s.1.Equipped V A options ∧ R s.1.board) c.perform := by
  cases c with
  | configure settings =>
    have hclosed (s : Session β) (hstate : s.state = .closed) :
        s.Equipped V A options ∧ R s.board ↔ s.options = options ∧ R s.board :=
      and_congr_left' (Session.equipped_closed hstate)
    exact Session.alone_triple (Session.configure_keeps (hconfigure settings rfl) hclosed settings)
  | initialise => exact Session.initialise_equipped hB
  | prepare => exact Session.alone_triple (Session.prepare_equipped hB)
  | start patience =>
    exact .bind (Session.alone_triple (Session.start_equipped hB patience)) fun _ => .pure _
  | acquire timestamp => exact .bind (Session.acquire_equipped hB timestamp) fun _ => .pure _
  | stop => exact Session.alone_triple (Session.stop_equipped hB)
  | close => exact absurd rfl hclose

/-- What every operation keeps, a run keeps. -/
theorem SessionRun.run_keeps {I : Session β → Prop} {calls : List SessionCall}
    (h : ∀ c ∈ calls, Preserves (fun s : Session β × ω => I s.1) c.perform) (r : SessionRun β ω)
    (hr : I r.session) : I (r.run calls).session := by
  induction calls generalizing r with
  | nil => exact hr
  | cons c calls ih =>
    refine ih (fun c' hc' => h c' (.tail _ hc')) (r.step c) ?_
    have hc := h c List.mem_cons_self
    unfold step
    split
    next hrun => exact hc.ok (s := (r.session, r.writer)) hr hrun
    next hrun => exact hc.error (s := (r.session, r.writer)) hr hrun

/-- A session that was closed once and that no one has tried to close since, whatever has become of
its operations, is equipped. -/
theorem SessionRun.run_equipped (closed : SessionRun β ω) (hclosed : closed.session.state = .closed)
    {calls : List SessionCall} (hcalls : ∀ c ∈ calls, c ≠ .close) :
    (closed.run calls).session.Equipped (fun _ _ _ => True) (fun _ => True)
      closed.session.options := by
  have hB := BoardContract.anything β
  refine (run_keeps (I := fun s => s.Equipped (fun _ _ _ => True) (fun _ => True)
    closed.session.options ∧ True) (fun c hc => ?_) closed ?_).1
  · exact SessionCall.perform_equipped hB (hcalls c hc) fun _ _ _ _ _ => .anything _
  · exact ⟨(Session.equipped_closed hclosed).2 rfl, trivial⟩

/-! ## Main result -/

/-- Open a closed session, and let it go through any operations but a close, with whatever outcomes
and cycles. While it is acquiring, a cycle that has read something into the readout buffer calls the
writer exactly if that can be stored: if it is not empty, is decoded without an error, and its
events have the layout's size and fit the record buffer. The call is then the only one, and is to
store the records of these events, from which they can be read back. Otherwise the writer is not
called and the cycle is idle or lost. The log of the writer changes nothing about the cycle. -/
theorem SessionRun.acquire_hands_over (closed : SessionRun β ω) (calls : List SessionCall)
    (r : SessionRun β ω) (timestamp : UInt64) (hclosed : closed.session.state = .closed)
    (hcalls : ∀ c ∈ calls, c ≠ .close) (hr : r = closed.run calls)
    (hstate : r.session.state = .acquiring) :
    ∃ layout readout records, r.session.layout = some layout ∧ r.session.readout = some readout ∧
      r.session.records = some records ∧
      ∀ buffer s, Session.retried (Session.readInto readout) r.session = .ok buffer s →
        ∃ cycle s' w' asked,
          Session.acquire timestamp (r.session, r.writer) = .ok cycle (s', w') ∧
          Session.acquire timestamp (r.session, LoggedWriter.mk r.writer []) =
            .ok cycle (s', ⟨w', asked⟩) ∧
          ((∃ raws, Storable layout records.capacity buffer.bytes raws ∧
              HandedOver layout raws r.session.id timestamp asked ∧
              (cycle = .written buffer.bytes.length raws.length ∨ ∃ e, cycle = .writeFailed e)) ∨
            ((∀ raws, ¬Storable layout records.capacity buffer.bytes raws) ∧ asked = [] ∧
              (cycle = .idle ∨ ∃ e, cycle = .lost e))) := by
  have hequipped := closed.run_equipped hclosed hcalls
  rw [← hr] at hequipped
  obtain ⟨-, layout, readout, records, hlayout, hreadout, hrecords, hmade, -, hslots⟩ :=
    (Session.equipped_stocked (.inr hstate)).1 hequipped
  refine ⟨layout, readout, records, hlayout, hreadout, hrecords, fun buffer s hread => ?_⟩
  have hbehind := Session.read_triple (R := fun _ => True) (A := fun _ => True)
    (B := fun _ => True) (BoardContract.anything β).read r.session readout r.session
    (Session.reading_self hreadout trivial trivial)
  rw [hread] at hbehind
  obtain ⟨-, ⟨board, old, waited, rfl⟩, -, -⟩ := hbehind
  rw [Session.acquire_eq hstate hlayout hreadout hrecords,
    Session.acquire_eq hstate hlayout hreadout hrecords, hread]
  exact Session.settle_hands_over (s := { r.session with board, readout := old, waited }) hmade
    hslots.elementSize hslots.headerSize hrecords buffer.bytes timestamp r.writer

end Runs

/-- The group calls of a readout with one event. -/
def oneEvent : List GroupCall :=
  [⟨0, {}, [{ time := 5, channel := 1, charge := 7 }]⟩]

/-- A board with one group whose first readout is broken and whose second one has an event. -/
def boardWithEvent : ScriptedBoard where
  registers := [((.groupEnableMask, none), 1)]
  readouts := [[1, 2, 3], (BoardAggregate.ofCalls oneEvent).toBytes]

/-- A session of that board that has lost its first cycle. -/
def lostOnce : SessionRun ScriptedBoard Totals :=
  (SessionRun.ofBoard boardWithEvent {} {}).run [.initialise, .prepare, .start 0, .acquire 1]

/-- Its next cycle hands over the event, in the eight bytes of a compact record. -/
theorem lostOnce_hands_over :
    (∀ c ∈ [SessionCall.initialise, .prepare, .start 0, .acquire 1], c ≠ .close) ∧
      lostOnce.session.state = .acquiring ∧ lostOnce.session.stats.lostCycles = 1 ∧
      ∃ cycle s' w' asked buffer,
        Session.acquire 2 (lostOnce.session, lostOnce.writer) = .ok cycle (s', w') ∧
        Session.acquire 2 (lostOnce.session, LoggedWriter.mk lostOnce.writer []) =
          .ok cycle (s', ⟨w', asked⟩) ∧
        asked = [.writeBuffer .compact buffer 1 2] ∧
        buffer.rawBytes = [5, 0, 0, 0, 1, 0, 7, 0] := by
  have hcalls : ∀ c ∈ [SessionCall.initialise, .prepare, .start 0, .acquire 1], c ≠ .close := by
    simp
  have hstate : lostOnce.session.state = .acquiring := by decide +kernel
  have hlost : lostOnce.session.stats.lostCycles = 1 := by decide +kernel
  have hid : lostOnce.session.id = 1 := by decide +kernel
  refine ⟨hcalls, hstate, hlost, ?_⟩
  obtain ⟨layout, readout, records, hlayout, hreadout, hrecords, hcycle⟩ :=
    SessionRun.acquire_hands_over (SessionRun.ofBoard boardWithEvent {} ({} : Totals)) _ lostOnce 2
      rfl hcalls rfl hstate
  have hgeometry : lostOnce.session.layout.map (fun l => (l.kind, l.elementSize)) =
      some (.compact, 8) := by decide +kernel
  have hslots : lostOnce.session.records.map (·.capacity) = some 512 := by decide +kernel
  rw [hlayout, Option.map_some, Option.some.injEq, Prod.mk.injEq] at hgeometry
  rw [hrecords, Option.map_some, Option.some.injEq] at hslots
  have hbuffer : readout = ⟨4096, [1, 2, 3]⟩ := by
    have h : lostOnce.session.readout = some ⟨4096, [1, 2, 3]⟩ := by decide +kernel
    exact Option.some.inj (hreadout.symm.trans h)
  have hnext : (match Session.retried (Session.readInto readout) lostOnce.session with
      | .ok buffer _ => some buffer
      | .error _ _ => none) = some ⟨4096, (BoardAggregate.ofCalls oneEvent).toBytes⟩ := by
    rw [hbuffer]
    decide +kernel
  cases hread : Session.retried (Session.readInto readout) lostOnce.session with
  | error e s =>
    rw [hread] at hnext
    cases hnext
  | ok buffer s =>
    rw [hread] at hnext
    obtain rfl := Option.some.inj hnext
    obtain ⟨cycle, s', w', asked, hbare, hlogged, hcases⟩ := hcycle _ s hread
    have hdecode : decode (BoardAggregate.ofCalls oneEvent).toBytes = _ :=
      decode_ofCalls (by decide) (by decide)
    have hfit : RawEvent.Fit layout.kind layout.elementSize records.capacity
        ((packedEvents oneEvent).map PackedEvent.raw) := by
      rw [hgeometry.1, hgeometry.2, hslots]
      exact ⟨by decide, by decide⟩
    obtain ⟨raws, hstorable, ⟨buffer, hasked, -, hraw, -⟩, -⟩ | ⟨hnot, -⟩ := hcases
    · have hraws := hstorable.eq_of_decode hdecode
      rw [hgeometry.1, hid] at hasked
      rw [hgeometry.1] at hraw
      refine ⟨cycle, s', w', asked, buffer, hbare, hlogged, hasked, ?_⟩
      rw [hraw, hraws]
      decide
    · exact absurd ⟨by decide, hdecode, hfit⟩ (hnot _)

end PulseDaq
