import PulseDaq.Acquisition.Opening
import PulseDaq.Board.Simulated
import PulseDaq.Proofs.Session.Effects
import PulseDaq.Proofs.Session.Logged
import PulseDaq.Storage.Writer

/-!
# Giving up when a digitizer cannot be opened

If one digitizer of a run cannot be opened, its session and all that were opened before it are
closed. Closing releases the board of a session, unless the session is closed already; and a session
stays closed until it is initialised. So the board that could not be opened is released if what
failed was the last of the three steps, and left alone otherwise.

* `BoardLog.Released`, `BoardLog.Unreleased`: whether the board was told to close.
* `Opening.openOne_cases`: where opening leaves a session; `Opening.closed_open`: what closing makes
  of it.
* `Opening.exists_of_openAll`: a failure is that of one board behind others that were opened.
* `Opening.openAll_gives_up`: which boards are released.
-/

namespace PulseDaq

namespace BoardLog

/-- The board was not told to close. -/
def Unreleased (log : BoardLog) : Prop :=
  ∀ call ∈ log, call.1 ≠ .close

/-- The latest call told the board to close, for the first time, and it did. -/
def Released (log : BoardLog) : Prop :=
  ∃ earlier, log = (.close, .ok ()) :: earlier ∧ Unreleased earlier

theorem Unreleased.cons {log : BoardLog} (h : log.Unreleased) (c : BoardCall) (hc : c ≠ .close)
    (r : Except BoardError Unit) : Unreleased ((c, r) :: log) :=
  List.forall_mem_cons.2 ⟨hc, h⟩

end BoardLog

/-- The board always takes its readout buffers back, and always closes. -/
structure ReleasesAlways (β : Type) [Board β] : Prop where
  free : ∀ (buffer : ReadoutBuffer) (b : β), ∃ b', Board.free buffer b = .ok () b'
  close : ∀ b : β, ∃ b', Board.close b = .ok () b'

namespace LoggedBoard

variable {α β : Type} {X Y : BoardLog → Prop}

/-- A call that answers is logged as such. -/
theorem note_answered {c : BoardCall} {op : EStateM BoardError β α}
    (hop : ∀ b, ∃ a b', op b = .ok a b') (hY : ∀ log, X log → Y ((c, .ok ()) :: log)) :
    Triple (fun l : LoggedBoard β => X l.log) (note c op) (fun _ l => Y l.log)
      fun _ _ => False := by
  intro l hl
  obtain ⟨a, b, hrun⟩ := hop l.board
  simp only [note, hrun]
  exact hY l.log hl

/-- Calls but the last one do not release the board. -/
theorem note_unreleased (c : BoardCall) (hc : c ≠ .close) (op : EStateM BoardError β α) :
    Preserves (fun l : LoggedBoard β => l.log.Unreleased) (note c op) :=
  note_triple (X := BoardLog.Unreleased) (Y := BoardLog.Unreleased) (Z := BoardLog.Unreleased) op
    (fun _ h => h.cons c hc _) fun _ _ h => h.cons c hc _

end LoggedBoard

namespace Opening

variable {β ω : Type} [Board β] [DataWriter ω]

/-! ## Opening one session -/

/-- The first two steps of opening a session, behind which it has its layout. -/
def initialiseOne (settings : List Setting) : EStateM SessionError (Session β × ω) Unit := do
  Session.alone (Session.configure settings)
  Session.initialise

/-- The session is in a state, and its board was not released. -/
def At (state : SessionState) (s : Session (LoggedBoard β)) : Prop :=
  s.state = state ∧ s.board.log.Unreleased

omit [Board β] in
theorem blind_state (state : SessionState) :
    Session.Blind fun s : Session (LoggedBoard β) => s.state = state :=
  fun _ _ _ h => h

theorem initialiseOne_triple (settings : List Setting) :
    Triple (fun s : Session (LoggedBoard β) × ω => At .closed s.1) (initialiseOne settings)
      (fun _ s => At .initialised s.1) fun _ s => At .closed s.1 := by
  have hconfigure : Preserves (fun s : Session (LoggedBoard β) => At .closed s)
      (Session.configure settings) :=
    (Session.configure_triple (blind_state .closed)
      (R := fun l : LoggedBoard β => l.log.Unreleased)
      (fun f i v => LoggedBoard.note_unreleased (.set f i v) nofun (Board.set f i v)) settings).imp
      (fun _ _ h => ⟨h.1.1, h.2⟩) fun _ _ h => h
  refine .bind (Session.alone_triple hconfigure) fun _ => ?_
  rintro ⟨s, w⟩ hs
  refine (Session.initialise_triple (blind_state .closed)
    (R := fun l : LoggedBoard β => l.log.Unreleased) (V := fun _ _ _ => True) (fun f i => ?_) w).imp
    ?_ ?_ (s, w) ⟨hs, rfl⟩
  · exact Triple.imp (LoggedBoard.note_unreleased (.get f i) nofun (Board.get f i))
      (fun _ _ h => ⟨trivial, h⟩) fun _ _ h => h
  · rintro _ ⟨_, _⟩ ⟨s₁, layout, -, hlog, -, rfl, -⟩
    exact ⟨rfl, hlog⟩
  · exact fun _ _ h => h.1

theorem prepare_at :
    Triple (At (β := β) .initialised) Session.prepare (fun _ => At .ready)
      fun _ => At .initialised := by
  have hfree (buffer : ReadoutBuffer) : Preserves (fun l : LoggedBoard β => l.log.Unreleased)
      (Board.free buffer) :=
    LoggedBoard.note_unreleased (.free buffer.capacity) nofun (Board.free buffer)
  refine (Session.prepare_triple (A := fun _ => True) (blind_state .initialised)
    (R := fun l : LoggedBoard β => l.log.Unreleased) ?_ hfree).imp ?_ ?_
  · exact Triple.imp (LoggedBoard.note_unreleased .allocate nofun Board.allocate)
      (fun _ _ h => ⟨trivial, h⟩) fun _ _ h => h
  · rintro _ _ ⟨s₁, _, _, _, -, hlog, -, -, -, rfl⟩
    exact ⟨rfl, hlog⟩
  · rintro _ s ⟨hstate, hlog | ⟨hlog, -⟩⟩
    · exact ⟨hstate, hlog⟩
    · exact ⟨hstate, hlog⟩

/-- What closing makes of a session that is open but not acquiring. -/
theorem closed_open (hβ : ReleasesAlways β) {state : SessionState} {s : Session (LoggedBoard β)}
    (hs : At state s) (hopen : state ≠ .closed) (hidle : state ≠ .acquiring) :
    (closed s).state = .closed ∧ (closed s).board.log.Released := by
  obtain ⟨rfl, hlog⟩ := hs
  have hclose := Session.close_triple (β := LoggedBoard β) (P := fun _ => True)
    (R := fun _ => False) (S := fun _ => False) (G := fun _ => False) (D := fun _ => False)
    (Q := fun l => l.log.Unreleased) (F := fun l => l.log.Unreleased)
    (C := fun l => l.log.Released) (fun _ _ _ _ => trivial) (fun _ h => h.elim) (fun _ h => h.elim)
    (fun _ buffer _ _ => LoggedBoard.note_answered (fun b => ⟨(), hβ.free buffer b⟩)
      fun _ h => h.cons (.free buffer.capacity) nofun _)
    (fun _ _ _ _ h => h)
    (LoggedBoard.note_answered (fun b => ⟨(), hβ.close b⟩) fun log h => ⟨log, rfl, h⟩)
  have hrun := hclose s ⟨⟨hopen, trivial⟩, by rwa [if_neg hidle]⟩
  unfold closed
  cases h : s.close with
  | ok _ s' =>
    rw [h] at hrun
    obtain ⟨s₁, -, hreleased, rfl⟩ := hrun
    exact ⟨rfl, hreleased⟩
  | error e s' =>
    rw [h] at hrun
    obtain ⟨-, -, hfalse⟩ | ⟨_, _, -, hfalse | hfalse, -⟩ := hrun
    all_goals exact hfalse.elim

omit [DataWriter ω] in
theorem closed_closed {s : Session β} (hs : s.state = .closed) : closed s = s := by
  rw [closed, Session.close_closed hs]

/-- Where opening leaves a session. Up to the last step it stays closed if it fails. -/
theorem openOne_cases (settings : List Setting) {s : Session (LoggedBoard β)} (hs : At .closed s)
    (w : ω) :
    (∃ s' w', openOne settings (s, w) = .ok () (s', w') ∧ At .ready s') ∨
      (∃ e s' w', openOne settings (s, w) = .error e (s', w') ∧
        initialiseOne settings (s, w) = .error e (s', w') ∧ At .closed s') ∨
      ∃ e s' w' s₁ w₁, openOne settings (s, w) = .error e (s', w') ∧
        initialiseOne settings (s, w) = .ok () (s₁, w₁) ∧ At .initialised s' := by
  have hopen : openOne settings (s, w) =
      (initialiseOne settings >>= fun _ => Session.alone Session.prepare) (s, w) := by
    rw [openOne, initialiseOne, bind_assoc]
  have hinitialise := initialiseOne_triple settings (s, w) hs
  cases hfirst : initialiseOne settings (s, w) with
  | error e x =>
    rw [hfirst] at hinitialise
    exact .inr (.inl ⟨e, x.1, x.2, hopen.trans (bind_of_error hfirst), rfl, hinitialise⟩)
  | ok _ x =>
    rw [hfirst] at hinitialise
    have hlast := hopen.trans (bind_of_ok hfirst)
    have hprepare := Session.alone_triple (ω := ω) prepare_at x hinitialise
    cases hsecond : Session.alone Session.prepare x with
    | ok _ y =>
      rw [hsecond] at hprepare hlast
      exact .inl ⟨y.1, y.2, hlast, hprepare⟩
    | error e y =>
      rw [hsecond] at hprepare hlast
      exact .inr (.inr ⟨e, y.1, y.2, x.1, x.2, hlast, rfl, hprepare⟩)

/-! ## Opening all -/

/-- A failure is that of one session, behind others that were opened. -/
theorem exists_of_openAfter {opened : List (Session β)} {rest : List (Session β × List Setting)}
    {w w' : ω} {f : OpenFailure β} (h : openAfter opened rest w = .error f w') :
    ∃ front s settings back before w₁ left, rest = front ++ (s, settings) :: back ∧
      openAfter opened front w = .ok before w₁ ∧ f.place = before.length ∧
      openOne settings (s, w₁) = .error f.error (left, w') ∧
      f.sessions = (before ++ [left]).map closed := by
  induction rest generalizing opened w with
  | nil => cases h
  | cons x rest ih =>
    obtain ⟨s, settings⟩ := x
    unfold openAfter at h
    cases hrun : openOne settings (s, w) with
    | error e y =>
      rw [hrun] at h
      obtain ⟨rfl, rfl⟩ := EStateM.Result.error.inj h
      exact ⟨[], s, settings, rest, opened, w, y.1, rfl, rfl, rfl, hrun, rfl⟩
    | ok _ y =>
      rw [hrun] at h
      obtain ⟨front, s', settings', back, before, w₁, left, rfl, hbefore, hplace, hlast⟩ := ih h
      refine ⟨(s, settings) :: front, s', settings', back, before, w₁, left, rfl, ?_, hplace, hlast⟩
      unfold openAfter
      simp only [hrun, hbefore]

/-- Sessions that are opened are ready, and their boards were not released. -/
theorem openAfter_at {opened sessions : List (Session (LoggedBoard β))}
    {rest : List (Session (LoggedBoard β) × List Setting)} {w w' : ω}
    (hopened : ∀ s ∈ opened, At .ready s) (hrest : ∀ x ∈ rest, At .closed x.1)
    (h : openAfter opened rest w = .ok sessions w') :
    (∀ s ∈ sessions, At .ready s) ∧ sessions.length = opened.length + rest.length := by
  induction rest generalizing opened w with
  | nil =>
    obtain ⟨rfl, -⟩ := EStateM.Result.ok.inj h
    exact ⟨hopened, rfl⟩
  | cons x rest ih =>
    obtain ⟨s, settings⟩ := x
    have hs := hrest _ List.mem_cons_self
    unfold openAfter at h
    obtain ⟨s', w₁, hrun, hready⟩ | ⟨e, s', w₁, hrun, -⟩ | ⟨e, s', w₁, -, -, hrun, -⟩ :=
      openOne_cases settings hs w
    · simp only [hrun] at h
      have hmore : ∀ t ∈ opened ++ [s'], At .ready t :=
        List.forall_mem_append.2 ⟨hopened, List.forall_mem_singleton.2 hready⟩
      obtain ⟨hall, hlength⟩ := ih hmore (fun y hy => hrest y (.tail _ hy)) h
      refine ⟨hall, ?_⟩
      rw [hlength, List.length_append, List.length_singleton, List.length_cons]
      omega
    · simp only [hrun] at h
      cases h
    · simp only [hrun] at h
      cases h

/-! ## Without the logs -/

omit [Board β] in
theorem twins_forget {s : Session (LoggedBoard β)} {t : Session β} :
    Session.Twins LoggedBoard.Behind s t ↔ s.forget = t := by
  constructor
  · rintro ⟨_, _, ⟨rfl, rfl⟩, rfl⟩
    rfl
  · rintro rfl
    exact ⟨s.board.board, s.waited, ⟨rfl, rfl⟩, rfl⟩

/-- The same session of the board behind the log, beside the same writer. -/
abbrev Unlogged : Session (LoggedBoard β) × ω → Session β × ω → Prop :=
  Session.TwinPairs LoggedBoard.Behind Eq

theorem openOne_forget (settings : List Setting) (s : Session (LoggedBoard β)) (w : ω) :
    openOne settings (s.forget, w) = match openOne settings (s, w) with
      | .ok _ (s', w') => .ok () (s'.forget, w')
      | .error e (s', w') => .error e (s'.forget, w') := by
  have hperform (c : SessionCall) : Simulates (Unlogged (β := β) (ω := ω)) c.perform c.perform :=
    c.perform_simulates (LoggedBoard.twins β) (.refl ω)
  have hopen : Simulates (Unlogged (β := β) (ω := ω)) (openOne settings) (openOne settings) :=
    .bind (hperform (.configure settings)) fun _ =>
      .bind (hperform .initialise) fun _ => hperform .prepare
  obtain ⟨_, ⟨s', w'⟩, ⟨t', _⟩, hs, ht, h, rfl⟩ | ⟨e, ⟨s', w'⟩, ⟨t', _⟩, hs, ht, h, rfl⟩ :=
    hopen.cases (s := (s, w)) (t := (s.forget, w)) ⟨twins_forget.2 rfl, rfl⟩
  all_goals
    obtain rfl := twins_forget.1 h
    rw [hs, ht]

theorem closed_forget (s : Session (LoggedBoard β)) : closed s.forget = (closed s).forget := by
  have hclose := Session.close_simulates (LoggedBoard.twins β)
  unfold closed
  obtain ⟨_, s', t', hs, ht, h⟩ | ⟨e, s', t', hs, ht, h⟩ :=
    hclose.cases (s := s) (t := s.forget) (twins_forget.2 rfl)
  all_goals
    obtain rfl := twins_forget.1 h
    rw [hs, ht]

end Opening

/-- The failure behind the logs. -/
def OpenFailure.forget {β : Type} (f : OpenFailure (LoggedBoard β)) : OpenFailure β :=
  { f with sessions := f.sessions.map Session.forget }

namespace Opening

variable {β ω : Type} [Board β] [DataWriter ω]

theorem openAfter_forget (opened : List (Session (LoggedBoard β)))
    (rest : List (Session (LoggedBoard β) × List Setting)) (w : ω) :
    openAfter (opened.map Session.forget) (rest.map fun x => (x.1.forget, x.2)) w =
      match openAfter opened rest w with
      | .ok sessions w' => .ok (sessions.map Session.forget) w'
      | .error f w' => .error f.forget w' := by
  induction rest generalizing opened w with
  | nil => rfl
  | cons x rest ih =>
    obtain ⟨s, settings⟩ := x
    rw [List.map_cons]
    simp only [openAfter, openOne_forget]
    cases hrun : openOne settings (s, w) with
    | ok _ y => simpa using ih (opened ++ [y.1]) y.2
    | error e y => simp [OpenFailure.forget, closed_forget]

/-! ## Connected boards -/

/-- A board that is connected, and what its session is to be opened with. -/
structure Connected (β : Type) where
  board : β
  options : SessionOptions := {}
  settings : List Setting := []

/-- The session of a connected board, with the values to write to it. -/
def Connected.session (c : Connected β) : Session β × List Setting :=
  (.ofBoard c.board c.options, c.settings)

/-- The session with a log, which is empty. -/
def Connected.logged (c : Connected β) : Session (LoggedBoard β) × List Setting :=
  (.ofBoard { board := c.board } c.options, c.settings)

/-- The logs change nothing about a failure. -/
theorem openAll_forget {digitizers : List (Connected β)} {w w' : ω}
    {f : OpenFailure (LoggedBoard β)}
    (h : openAll (digitizers.map (·.logged)) w = .error f w') :
    openAll (digitizers.map (·.session)) w = .error f.forget w' := by
  have hforget := openAfter_forget [] (digitizers.map (·.logged)) w
  rw [show openAfter [] (digitizers.map (·.logged)) w = .error f w' from h] at hforget
  rw [List.map_map] at hforget
  exact hforget

theorem Connected.at_logged (c : Connected β) : At .closed c.logged.1 :=
  ⟨rfl, nofun⟩

/-- The connected board that could not be opened, and what those before it have become. -/
theorem exists_of_openAll {digitizers : List (Connected β)} {w w' : ω}
    {f : OpenFailure (LoggedBoard β)}
    (h : openAll (digitizers.map (·.logged)) w = .error f w') :
    ∃ c opened w₁ left, digitizers[f.place]? = some c ∧
      openAll ((digitizers.take f.place).map (·.logged)) w = .ok opened w₁ ∧
      openOne c.settings (c.logged.1, w₁) = .error f.error (left, w') ∧
      f.sessions = (opened ++ [left]).map closed ∧ ∀ s ∈ opened, At .ready s := by
  obtain ⟨front, s, settings, back, before, w₁, left, hsplit, hbefore, hplace, hrun, hsessions⟩ :=
    exists_of_openAfter h
  obtain ⟨earlier, rest, rfl, rfl, hrest⟩ := List.map_eq_append_iff.1 hsplit
  obtain ⟨c, later, rfl, hc, -⟩ := List.map_eq_cons_iff.1 hrest
  obtain ⟨rfl, rfl⟩ := Prod.mk.inj hc
  have hnone : ∀ s ∈ ([] : List (Session (LoggedBoard β))), At .ready s := List.forall_mem_nil _
  obtain ⟨hready, hlength⟩ :=
    openAfter_at hnone (List.forall_mem_map.2 fun c _ => c.at_logged) hbefore
  have hfront : f.place = earlier.length := by
    rw [hplace, hlength, List.length_map]
    exact Nat.zero_add _
  refine ⟨c, before, w₁, left, ?_, ?_, hrun, hsessions, hready⟩
  · rw [hfront, List.getElem?_append_right (Nat.le_refl _), Nat.sub_self]
    rfl
  · rw [hfront, List.take_left']
    · exact hbefore
    · rfl

/-- What closing makes of the session that could not be opened. -/
theorem closed_left (hβ : ReleasesAlways β) (c : Connected β) {w w' : ω} {e : SessionError}
    {left : Session (LoggedBoard β)}
    (h : openOne c.settings (c.logged.1, w) = .error e (left, w')) :
    (closed left).state = .closed ∧
      ((∃ x, initialiseOne c.settings (c.logged.1, w) = .ok () x) →
        (closed left).board.log.Released) ∧
      ((∃ e x, initialiseOne c.settings (c.logged.1, w) = .error e x) →
        (closed left).board.log.Unreleased) := by
  obtain ⟨_, _, hok, -⟩ | ⟨_, _, _, herror, hfirst, hs⟩ | ⟨_, _, _, _, _, herror, hfirst, hs⟩ :=
    openOne_cases c.settings c.at_logged w
  · cases hok.symm.trans h
  · cases herror.symm.trans h
    rw [closed_closed hs.1]
    refine ⟨hs.1, ?_, fun _ => hs.2⟩
    rintro ⟨x, hx⟩
    cases hfirst.symm.trans hx
  · cases herror.symm.trans h
    obtain ⟨hclosed, hreleased⟩ := closed_open hβ hs nofun nofun
    refine ⟨hclosed, fun _ => hreleased, ?_⟩
    rintro ⟨_, x, hx⟩
    cases hfirst.symm.trans hx

/-! ## Main result -/

/-- Let opening some digitizers fail, whatever the reason, while their boards let go of what they
are asked to let go of. Then opening has failed at one of them (`c`), behind others that were opened
one after another, and has given up these and that one, so that all their sessions are closed. The
logs of their boards, which change nothing, say: every board in front of `c` was released, and so
was that of `c` if it was initialised and only its buffers were missing. If configuring or
initialising `c` has failed, its session was closed all the while, and closing it has left its board
unreleased. -/
theorem openAll_gives_up (hβ : ReleasesAlways β) (digitizers : List (Connected β)) {w w' : ω}
    {f : OpenFailure (LoggedBoard β)}
    (h : openAll (digitizers.map (·.logged)) w = .error f w') :
    openAll (digitizers.map (·.session)) w = .error f.forget w' ∧
      ∃ c opened w₁ left, digitizers[f.place]? = some c ∧
        openAll ((digitizers.take f.place).map (·.logged)) w = .ok opened w₁ ∧
        openOne c.settings (c.logged.1, w₁) = .error f.error (left, w') ∧
        f.sessions = (opened ++ [left]).map closed ∧
        (∀ s ∈ f.sessions, s.state = .closed) ∧
        (∀ s ∈ opened, (closed s).board.log.Released) ∧
        ((∃ x, initialiseOne c.settings (c.logged.1, w₁) = .ok () x) →
          (closed left).board.log.Released) ∧
        ((∃ e x, initialiseOne c.settings (c.logged.1, w₁) = .error e x) →
          (closed left).board.log.Unreleased) := by
  obtain ⟨c, opened, w₁, left, hc, hopened, hrun, hsessions, hready⟩ := exists_of_openAll h
  obtain ⟨hleft, hlast, hnever⟩ := closed_left hβ c hrun
  have hfront (s : Session (LoggedBoard β)) (hs : s ∈ opened) :
      (closed s).state = .closed ∧ (closed s).board.log.Released :=
    closed_open hβ (hready s hs) nofun nofun
  refine ⟨openAll_forget h, c, opened, w₁, left, hc, hopened, hrun, hsessions, ?_,
    fun s hs => (hfront s hs).2, hlast, hnever⟩
  rw [hsessions, List.map_append]
  refine List.forall_mem_append.2 ⟨List.forall_mem_map.2 fun s hs => (hfront s hs).1, ?_⟩
  exact List.forall_mem_singleton.2 hleft

end Opening

/-- Simulated boards always let go. -/
theorem SimulatedBoard.releasesAlways : ReleasesAlways SimulatedBoard where
  free _ _ := ⟨_, rfl⟩
  close _ := ⟨_, rfl⟩

/-- A simulated board, and another one without any group. -/
def withoutGroup : List (Opening.Connected SimulatedBoard) :=
  [{ board := .ofSimulation {} fun _ => 0 },
    { board := .ofSimulation { groupMask := 0 } fun _ => 0 }]

/-- The second one cannot be opened. The first one is released, the second one is not. -/
theorem withoutGroup_unreleased :
    ∃ f w' first last, Opening.openAll (withoutGroup.map (·.logged)) ({} : Totals) = .error f w' ∧
      f.error = .noGroups ∧ f.sessions = [first, last] ∧ first.board.log.Released ∧
      last.state = .closed ∧ last.board.log.Unreleased := by
  have hfails : (match Opening.openAll (withoutGroup.map (·.logged)) ({} : Totals) with
      | .ok _ _ => none
      | .error f _ => some (f.place, f.error)) = some (1, .noGroups) := by
    decide +kernel
  have hfirst : (match Opening.openAll ((withoutGroup.take 1).map (·.logged)) ({} : Totals) with
      | .ok opened w => some (opened.length, w)
      | .error _ _ => none) = some (1, {}) := by
    decide +kernel
  have hsecond (c : Opening.Connected SimulatedBoard) (hc : withoutGroup[1]? = some c) :
      (match Opening.initialiseOne c.settings (c.logged.1, ({} : Totals)) with
      | .ok _ _ => true
      | .error _ _ => false) = false := by
    obtain rfl := Option.some.inj hc
    decide +kernel
  cases hrun : Opening.openAll (withoutGroup.map (·.logged)) ({} : Totals) with
  | ok sessions w' =>
    rw [hrun] at hfails
    cases hfails
  | error f w' =>
    rw [hrun] at hfails
    obtain ⟨hplace, herror⟩ := Prod.mk.inj (Option.some.inj hfails)
    obtain ⟨-, c, opened, w₁, left, hc, hopened, -, hsessions, hclosed, hreleased, -, hnever⟩ :=
      Opening.openAll_gives_up SimulatedBoard.releasesAlways withoutGroup hrun
    rw [hplace] at hc hopened
    rw [hopened] at hfirst
    obtain ⟨hlength, rfl⟩ := Prod.mk.inj (Option.some.inj hfirst)
    obtain ⟨s, rfl⟩ := List.length_eq_one_iff.1 hlength
    have hnot := hsecond c hc
    refine ⟨f, w', _, _, rfl, herror, hsessions, hreleased s List.mem_cons_self, ?_, hnever ?_⟩
    · refine hclosed _ ?_
      rw [hsessions]
      exact List.mem_cons_of_mem _ List.mem_cons_self
    · cases hinitialise : Opening.initialiseOne c.settings (c.logged.1, ({} : Totals)) with
      | ok _ x => simp [hinitialise] at hnot
      | error e x => exact ⟨e, x, rfl⟩

end PulseDaq
