import PulseDaq.Proofs.Session.Runs
import PulseDaq.Proofs.Simulation

/-!
# Sessions of related boards

Two sessions are twins if they are alike but for their boards and the time that they have waited,
which a relation `R` relates, given their options. If every request of one board simulates that of
the other, twins stay twins: each operation answers the same or fails alike, beside writers that are
related as well. A request that fails in an excused way (`X`) ends its operation with its error.

* `TwinBoards`, `TwinWriters`: what the boards and the writers have to satisfy.
* `SessionCall.ask_simulates`, `SessionCall.perform_simulates`: one operation.
* `SessionRun.run_twins`: a run.
-/

namespace PulseDaq

variable {β β' ω ω' : Type} {R : SessionOptions → β × Duration → β' × Duration → Prop}
  {W : ω → ω' → Prop} {X : SessionError → Session β → Prop}

namespace Session

/-- Two sessions alike but for their boards and the time that they have waited. -/
def Twins (R : SessionOptions → β × Duration → β' × Duration → Prop) (s : Session β)
    (t : Session β') : Prop :=
  ∃ board waited, R s.options (s.board, s.waited) (board, waited) ∧
    t = { s with board := board, waited := waited }

/-- Twins, each beside a writer. -/
def TwinPairs (R : SessionOptions → β × Duration → β' × Duration → Prop) (W : ω → ω' → Prop)
    (s : Session β × ω) (t : Session β' × ω') : Prop :=
  Twins R s.1 t.1 ∧ W s.2 t.2

end Session

/-- The requests of one board simulate those of another. A request is a call without retries, or a
call with all of its retries. -/
structure TwinBoards (β β' : Type) [Board β] [Board β']
    (R : SessionOptions → β × Duration → β' × Duration → Prop)
    (X : SessionError → Session β → Prop := fun _ _ => False) : Prop where
  firmware : ∀ {o b b' d d'}, R o (b, d) (b', d') → Board.firmware b = Board.firmware b'
  wait : ∀ {o b b' d d'} (more : Duration), R o (b, d) (b', d') → R o (b, d + more) (b', d' + more)
  get : ∀ {α : Type} (f : FunctionId) (index : Option UInt32) (k : UInt32 → α),
    Simulates (Session.Twins R) (Session.retried (Session.call do return k (← Board.get f index)))
      (Session.retried (Session.call do return k (← Board.get f index))) X
  set : ∀ (f : FunctionId) (index : Option UInt32) (value : UInt32),
    Simulates (Session.Twins R) (Session.retried (Session.call (Board.set f index value)))
      (Session.retried (Session.call (Board.set f index value))) X
  allocate : Simulates (Session.Twins R) (Session.once (Session.call Board.allocate))
    (Session.once (Session.call Board.allocate)) X
  read : ∀ buffer : ReadoutBuffer, Simulates (Session.Twins R)
    (Session.retried (Session.readInto buffer)) (Session.retried (Session.readInto buffer)) X
  free : ∀ buffer : ReadoutBuffer, Simulates (Session.Twins R)
    (Session.once (Session.call (Board.free buffer)))
    (Session.once (Session.call (Board.free buffer))) X
  start : Simulates (Session.Twins R) (Session.once (Session.call Board.start))
    (Session.once (Session.call Board.start)) X
  stop : Simulates (Session.Twins R) (Session.retried (Session.call Board.stop))
    (Session.retried (Session.call Board.stop)) X
  close : Simulates (Session.Twins R) (Session.once (Session.call Board.close))
    (Session.once (Session.call Board.close)) X

/-- What a session asks of one writer simulates what it asks of another. -/
structure TwinWriters (ω ω' : Type) [DataWriter ω] [DataWriter ω'] (W : ω → ω' → Prop) : Prop where
  addDigitizer : ∀ id : UInt64,
    Simulates W (DataWriter.addDigitizer id) (DataWriter.addDigitizer id)
  writeBuffer : ∀ (kind : RecordKind) (buffer : RecordBuffer) (id timestamp : UInt64),
    Simulates W (DataWriter.writeBuffer kind buffer id timestamp)
      (DataWriter.writeBuffer kind buffer id timestamp)

theorem TwinWriters.refl (ω : Type) [DataWriter ω] : TwinWriters ω ω Eq where
  addDigitizer _ := .refl _
  writeBuffer _ _ _ _ := .refl _

theorem Session.twins_eq : Session.Twins (fun _ => Eq) = (Eq : Session β → Session β → Prop) := by
  funext s t
  refine propext ⟨?_, ?_⟩
  · rintro ⟨_, _, ⟨⟩, rfl⟩
    rfl
  · rintro rfl
    exact ⟨s.board, s.waited, rfl, rfl⟩

theorem TwinBoards.refl (β : Type) [Board β] : TwinBoards β β fun _ => Eq where
  firmware h := congrArg (fun x => Board.firmware x.1) h
  wait more h := congrArg (fun x => (x.1, x.2 + more)) h
  get _ _ _ := Session.twins_eq ▸ .refl _
  set _ _ _ := Session.twins_eq ▸ .refl _
  allocate := Session.twins_eq ▸ .refl _
  read _ := Session.twins_eq ▸ .refl _
  free _ := Session.twins_eq ▸ .refl _
  start := Session.twins_eq ▸ .refl _
  stop := Session.twins_eq ▸ .refl _
  close := Session.twins_eq ▸ .refl _

namespace Session

/-! ## The session alone -/

theorem require_simulates (op : SessionOperation) (state : SessionState) :
    Simulates (Twins R) (require op state) (require op state) X := by
  refine .bind_get ?_
  rintro s _ ⟨board, waited, -, rfl⟩
  exact .ite (.throw _) (.pure _)

/-- A change that the board and the time have no part in. -/
theorem modify_simulates {ε : Type} {X : ε → Session β → Prop} {g : Session β → Session β}
    {g' : Session β' → Session β'}
    (hR : ∀ s, R s.options (s.board, s.waited) = R (g s).options ((g s).board, (g s).waited))
    (hg : ∀ s board waited, g' { s with board := board, waited := waited } =
      { g s with board := board, waited := waited }) :
    Simulates (α := PUnit) (Twins R) (modify g) (modify g') X := by
  refine .modify ?_
  rintro s _ ⟨board, waited, h, rfl⟩
  exact ⟨board, waited, hR s ▸ h, hg s board waited⟩

theorem count_simulates {ε : Type} {X : ε → Session β → Prop} (change : Stats → Stats) :
    Simulates (Twins R) (count change) (count change) X :=
  modify_simulates (fun _ => rfl) fun _ _ _ => rfl

theorem decodeInto_simulates {ε : Type} {X : ε → Session β → Prop} (layout : Layout)
    (records : RecordBuffer) (bytes : Bytes) :
    Simulates (Twins R) (decodeInto layout records bytes) (decodeInto layout records bytes) X := by
  unfold decodeInto
  split
  all_goals
    exact .bind (count_simulates _) fun _ =>
      .bind (modify_simulates (fun _ => rfl) fun _ _ _ => rfl) fun _ => .pure _

variable [Board β] [Board β'] (hB : TwinBoards β β' R X)
include hB

theorem wait_simulates {ε : Type} {Y : ε → Session β → Prop} (d : Duration) :
    Simulates (Twins R) (wait d) (wait d) Y := by
  refine .modify ?_
  rintro s _ ⟨board, waited, h, rfl⟩
  exact ⟨board, waited + d, hB.wait d h, rfl⟩

theorem value_simulates (f : FunctionId) (index : Option UInt32) :
    Simulates (Twins R) (value f index) (value f index) X := by
  have h := hB.get f index fun v => v
  rw [bind_pure, bind_pure] at h
  exact h

theorem configure_simulates (settings : List Setting) :
    Simulates (Twins R) (configure settings) (configure settings) X :=
  .bind (require_simulates _ _) fun _ => .forM (fun _ => hB.set _ _ _) settings

theorem triggerSettings_simulates (g : Group) :
    Simulates (Twins R) (triggerSettings g) (triggerSettings g) X :=
  .bind (value_simulates hB _ _) fun _ => .bind (value_simulates hB _ _) fun _ =>
    .bind (value_simulates hB _ _) fun _ => .bind (value_simulates hB _ _) fun _ => .pure _

theorem geometry_simulates : Simulates (Twins R) geometry geometry X := by
  refine .bind_get ?_
  rintro s _ ⟨board, waited, h, rfl⟩
  simp only [hB.firmware h]
  refine .guard (.bind (hB.get _ _ BoardConfiguration.mk) fun configuration =>
    .bind (hB.get _ _ UInt32.toUInt8) fun mask => .guard ?_)
  have hsettings := fun groups : List Group => Simulates.mapM (R := Twins R)
    (fun g => .bind (triggerSettings_simulates hB g) fun t => .pure (g, t)) groups
  refine .ite (.bind (value_simulates hB _ _) fun recordLength => ?_)
    (.bind (.pure _) fun recordLength => ?_)
  all_goals exact .guard (.bind (hsettings _) fun _ => .pure _)

theorem prepare_simulates : Simulates (Twins R) prepare prepare X := by
  refine .bind (require_simulates _ _) fun _ => .bind_get ?_
  rintro s _ ⟨board, waited, h, rfl⟩
  dsimp only
  split
  · refine .bind hB.allocate fun readout => .ite ?_ ?_
    · exact .bind (hB.free readout) fun _ => .throw _
    · refine .bind (.adaptExcept (.ofExcept _)) fun records => ?_
      exact modify_simulates (fun _ => rfl) fun _ _ _ => rfl
  · exact .throw _

theorem poll_simulates : Simulates (Twins R) poll poll X := by
  refine .bind (require_simulates _ _) fun _ =>
    .bind (hB.get _ _ AcquisitionStatus.mk) fun status => .ite (.pure _) ?_
  exact .bind hB.start fun _ =>
    .bind (modify_simulates (fun _ => rfl) fun _ _ _ => rfl) fun _ => .pure _

theorem start_simulates (patience : Nat) :
    Simulates (Twins R) (start patience) (start patience) X := by
  induction patience with
  | zero => exact poll_simulates hB
  | succ patience ih =>
    refine .bind (poll_simulates hB) fun started => .ite (.pure _) (.bind_get ?_)
    rintro s _ ⟨board, waited, h, rfl⟩
    exact .bind (wait_simulates hB _) fun _ => ih

theorem stop_simulates : Simulates (Twins R) stop stop X :=
  .bind (require_simulates _ _) fun _ => .bind hB.stop fun _ =>
    modify_simulates (fun _ => rfl) fun _ _ _ => rfl

theorem release_simulates : Simulates (Twins R) release release X := by
  refine .bind_get ?_
  rintro s _ ⟨board, waited, h, rfl⟩
  dsimp only
  split
  · exact .bind (modify_simulates (fun _ => rfl) fun _ _ _ => rfl) fun _ => hB.free _
  · exact .pure _

theorem giveUp_simulates : Simulates (Twins R) giveUp giveUp X :=
  .bind (release_simulates hB) fun _ =>
    .bind (modify_simulates (fun _ => rfl) fun _ _ _ => rfl) fun _ =>
      .bind hB.close fun _ => modify_simulates (fun _ => rfl) fun _ _ _ => rfl

theorem close_simulates : Simulates (Twins R) close close X := by
  have hgiveUp := giveUp_simulates hB
  rw [close_eq, close_eq]
  refine .bind_get ?_
  rintro s _ ⟨board, waited, h, rfl⟩
  exact .ite (.pure _) (.ite (.bind (stop_simulates hB) fun _ => hgiveUp) hgiveUp)

/-! ## Beside a writer -/

omit hB [Board β] [Board β'] in
theorem alone_simulates {ε α : Type} {X : ε → Session β → Prop} {c : EStateM ε (Session β) α}
    {d : EStateM ε (Session β') α} (h : Simulates (Twins R) c d X) :
    Simulates (TwinPairs R W) (alone c) (alone d) fun e s => X e s.1 := by
  rintro ⟨s, w⟩ ⟨t, v⟩ ⟨hst, hwv⟩
  simp only [alone]
  obtain ⟨a, s', t', hs, ht, h'⟩ | ⟨e, s', t', hs, ht, h'⟩ | ⟨e, s', hs, hX⟩ := h.cases_excused hst
  · rw [hs, ht]
    exact .ok a ⟨h', hwv⟩
  · rw [hs, ht]
    exact .error e ⟨h', hwv⟩
  · rw [hs]
    exact .excused (X := fun e (s : Session β × ω) => X e s.1) e hX _

omit hB [Board β] [Board β'] in
theorem writing_simulates {α : Type} {X : WriterError → Session β × ω → Prop}
    {c : EStateM WriterError ω α} {d : EStateM WriterError ω' α} (h : Simulates W c d) :
    Simulates (TwinPairs R W) (writing c) (writing d) X := by
  rintro ⟨s, w⟩ ⟨t, v⟩ ⟨hst, hwv⟩
  simp only [writing]
  obtain ⟨a, w', v', hw, hv, h'⟩ | ⟨e, w', v', hw, hv, h'⟩ := h.cases hwv
  · rw [hw, hv]
    exact .ok a ⟨hst, h'⟩
  · rw [hw, hv]
    exact .error e ⟨hst, h'⟩

variable [DataWriter ω] [DataWriter ω'] (hW : TwinWriters ω ω' W)
include hW

theorem initialise_simulates :
    Simulates (TwinPairs R W) initialise initialise fun e s => X e s.1 := by
  refine .bind (alone_simulates (require_simulates _ _)) fun _ =>
    .bind (alone_simulates (geometry_simulates hB)) fun layout => .bind_get ?_
  rintro ⟨s, w⟩ ⟨t, v⟩ ⟨⟨board, waited, -, rfl⟩, -⟩
  exact .bind (.adaptExcept (writing_simulates (hW.addDigitizer s.id))) fun _ =>
    alone_simulates (X := X) (modify_simulates (fun _ => rfl) fun _ _ _ => rfl)

omit hB [Board β] [Board β'] in
theorem store_simulates {ε : Type} {X : ε → Session β × ω → Prop} (layout : Layout)
    (records : RecordBuffer) (bytes events : Nat) (timestamp : UInt64) :
    Simulates (TwinPairs R W) (store layout records bytes events timestamp)
      (store layout records bytes events timestamp) X := by
  rintro ⟨s, w⟩ ⟨_, v⟩ ⟨⟨board, waited, h, rfl⟩, hwv⟩
  simp only [store]
  obtain ⟨_, w', v', hw, hv, h'⟩ | ⟨e, w', v', hw, hv, h'⟩ :=
    (hW.writeBuffer layout.kind records s.id timestamp).cases hwv
  · rw [hw, hv]
    exact .ok _ ⟨⟨board, waited, h, rfl⟩, h'⟩
  · rw [hw, hv]
    exact .ok _ ⟨⟨board, waited, h, rfl⟩, h'⟩

theorem acquire_simulates (timestamp : UInt64) :
    Simulates (TwinPairs R W) (acquire timestamp) (acquire timestamp) fun e s => X e s.1 := by
  refine .bind (alone_simulates (require_simulates _ _)) fun _ => .bind_get ?_
  rintro ⟨s, w⟩ ⟨t, v⟩ ⟨⟨board, waited, -, rfl⟩, -⟩
  dsimp only
  split
  next layout readout records _ =>
    refine .bind (alone_simulates (hB.read readout)) fun buffer =>
      .bind (alone_simulates (count_simulates _)) fun _ => .ite ?_ ?_
    · exact .bind (alone_simulates (count_simulates _)) fun _ => .pure _
    refine .bind (alone_simulates (count_simulates _)) fun _ =>
      .bind (alone_simulates (decodeInto_simulates layout records _)) fun decoded => ?_
    cases decoded with
    | error e => exact .pure _
    | ok filled => exact store_simulates hW layout _ _ _ timestamp
  · exact .throw _

end Session

/-! ## Runs -/

section Calls

variable [Board β] [Board β'] [DataWriter ω] [DataWriter ω'] (hB : TwinBoards β β' R X)
  (hW : TwinWriters ω ω' W)
include hB hW

theorem SessionCall.ask_simulates (c : SessionCall) :
    Simulates (Session.TwinPairs R W) c.ask c.ask fun e s => X e s.1 := by
  cases c with
  | configure settings =>
    exact .bind (Session.alone_simulates (Session.configure_simulates hB settings)) fun _ =>
      .pure _
  | initialise => exact .bind (Session.initialise_simulates hB hW) fun _ => .pure _
  | prepare =>
    exact .bind (Session.alone_simulates (Session.prepare_simulates hB)) fun _ => .pure _
  | start patience =>
    exact .bind (Session.alone_simulates (Session.start_simulates hB patience)) fun _ => .pure _
  | acquire timestamp => exact .bind (Session.acquire_simulates hB hW timestamp) fun _ => .pure _
  | stop => exact .bind (Session.alone_simulates (Session.stop_simulates hB)) fun _ => .pure _
  | close => exact .bind (Session.alone_simulates (Session.close_simulates hB)) fun _ => .pure _

theorem SessionCall.perform_simulates (c : SessionCall) :
    Simulates (Session.TwinPairs R W) c.perform c.perform fun e s => X e s.1 := by
  rw [perform_eq_ask, perform_eq_ask]
  exact .bind (c.ask_simulates hB hW) fun _ => .pure _

end Calls

/-- Runs of twins beside related writers. -/
def SessionRun.Twins (R : SessionOptions → β × Duration → β' × Duration → Prop) (W : ω → ω' → Prop)
    (r : SessionRun β ω) (q : SessionRun β' ω') : Prop :=
  Session.TwinPairs R W (r.session, r.writer) (q.session, q.writer) ∧ r.halfClosed = q.halfClosed

section Runs

variable [Board β] [Board β'] [DataWriter ω] [DataWriter ω'] (hB : TwinBoards β β' R)
  (hW : TwinWriters ω ω' W)
include hB hW

theorem SessionRun.step_twins {r : SessionRun β ω} {q : SessionRun β' ω'} (h : r.Twins R W q)
    (c : SessionCall) : (r.step c).Twins R W (q.step c) := by
  unfold step
  obtain ⟨_, s, t, hs, ht, h'⟩ | ⟨e, s, t, hs, ht, h'⟩ := (c.perform_simulates hB hW).cases h.1
  · rw [hs, ht]
    exact ⟨h', congrArg c.answered h.2⟩
  · rw [hs, ht]
    refine ⟨h', ?_⟩
    obtain ⟨⟨board, waited, -, ht⟩, -⟩ := h'
    show c.failed r.halfClosed s.1.state = c.failed q.halfClosed t.1.state
    rw [h.2, ht]

/-- Runs of twins leave twins behind. -/
theorem SessionRun.run_twins {r : SessionRun β ω} {q : SessionRun β' ω'} (h : r.Twins R W q)
    (calls : List SessionCall) : (r.run calls).Twins R W (q.run calls) := by
  induction calls generalizing r q with
  | nil => exact h
  | cons c calls ih => exact ih (step_twins hB hW h c)

end Runs

end PulseDaq
