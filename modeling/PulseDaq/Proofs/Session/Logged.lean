import PulseDaq.Proofs.Board.Logged
import PulseDaq.Proofs.Session.Cycles
import PulseDaq.Proofs.Session.Twins

/-!
# Sessions with logs

A session of a logged board beside a logged writer is the session of the board beside the writer,
with a log of every call that it makes. Without the logs nothing is different
(`SessionCall.perform_forget`, `SessionRun.run_forget`), so what the logs say of a run is true of
the calls of the same run without them.
-/

namespace PulseDaq

variable {β ω : Type}

/-! ## Boards and writers -/

/-- The board behind the log, after the same time. -/
def LoggedBoard.Behind (_ : SessionOptions) (l : LoggedBoard β × Duration) (b : β × Duration) :
    Prop :=
  l.1.board = b.1 ∧ l.2 = b.2

namespace Session

variable {α : Type}

theorem call_logged {c : EStateM BoardError (LoggedBoard β) α} {d : EStateM BoardError β α}
    (h : Simulates (fun l b => l.board = b) c d) :
    Simulates (Twins LoggedBoard.Behind) (call c) (call d) := by
  rintro s _ ⟨_, _, ⟨rfl, rfl⟩, rfl⟩
  simp only [call]
  obtain ⟨a, l, _, hl, hb, rfl⟩ | ⟨e, l, _, hl, hb, rfl⟩ := h.cases (s := s.board) rfl
  · rw [hl, hb]
    exact .ok a ⟨l.board, s.waited, ⟨rfl, rfl⟩, rfl⟩
  · rw [hl, hb]
    exact .error e ⟨l.board, s.waited, ⟨rfl, rfl⟩, rfl⟩

theorem readInto_logged [Board β] (buffer : ReadoutBuffer) :
    Simulates (Twins LoggedBoard.Behind) (readInto (β := LoggedBoard β) buffer)
      (readInto (β := β) buffer) := by
  rintro s _ ⟨_, _, ⟨rfl, rfl⟩, rfl⟩
  simp only [readInto]
  obtain ⟨_, ⟨l, left⟩, _, hl, hb, rfl⟩ | ⟨e, ⟨l, left⟩, _, hl, hb, rfl⟩ :=
    (LoggedBoard.read_simulates (Board.read (β := β))).cases
      (s := (s.board, s.readout.getD buffer)) rfl
  · rw [show Board.read (s.board, s.readout.getD buffer) = .ok () (l, left) from hl, hb]
    exact .ok left ⟨l.board, s.waited, ⟨rfl, rfl⟩, rfl⟩
  · rw [show Board.read (s.board, s.readout.getD buffer) = .error e (l, left) from hl, hb]
    exact .error e ⟨l.board, s.waited, ⟨rfl, rfl⟩, rfl⟩

theorem once_logged {c : EStateM BoardError (Session (LoggedBoard β)) α}
    {d : EStateM BoardError (Session β) α} (h : Simulates (Twins LoggedBoard.Behind) c d) :
    Simulates (Twins LoggedBoard.Behind) (once c) (once d) :=
  .adaptExcept h

theorem retried_logged {c : EStateM BoardError (Session (LoggedBoard β)) α}
    {d : EStateM BoardError (Session β) α} (h : Simulates (Twins LoggedBoard.Behind) c d) :
    Simulates (Twins LoggedBoard.Behind) (retried c) (retried d) := by
  have hwait (d : Duration) : Simulates (ε := BoardError) (Twins (LoggedBoard.Behind (β := β)))
      (wait d) (wait d) := by
    refine .modify ?_
    rintro s _ ⟨_, _, ⟨rfl, rfl⟩, rfl⟩
    exact ⟨s.board.board, s.waited + d, ⟨rfl, rfl⟩, rfl⟩
  refine .bind_get ?_
  rintro s _ ⟨_, _, -, rfl⟩
  exact once_logged (.attempt s.options.retry hwait h)

end Session

/-- A logged board is the twin of the board. -/
theorem LoggedBoard.twins (β : Type) [Board β] :
    TwinBoards (LoggedBoard β) β LoggedBoard.Behind where
  firmware h := congrArg Board.firmware h.1
  wait more h := ⟨h.1, congrArg (· + more) h.2⟩
  get f index k := Session.retried_logged <| Session.call_logged <|
    .bind (note_simulates (.get f index) (Board.get f index)) fun v => .pure (k v)
  set _ _ _ := Session.retried_logged (Session.call_logged (note_simulates _ _))
  allocate := Session.once_logged (Session.call_logged (note_simulates _ _))
  read buffer := Session.retried_logged (Session.readInto_logged buffer)
  free _ := Session.once_logged (Session.call_logged (note_simulates _ _))
  start := Session.once_logged (Session.call_logged (note_simulates _ _))
  stop := Session.retried_logged (Session.call_logged (note_simulates _ _))
  close := Session.once_logged (Session.call_logged (note_simulates _ _))

/-- A logged writer is the twin of the writer. -/
theorem LoggedWriter.twins (ω : Type) [DataWriter ω] :
    TwinWriters (LoggedWriter ω) ω fun l w => l.writer = w := by
  have hnote (c : WriterCall) :
      Simulates (fun (l : LoggedWriter ω) w => l.writer = w) (note c) c.perform := by
    rintro l _ rfl
    simp only [note]
    cases c.perform l.writer with
    | ok _ w => exact .ok () rfl
    | error e w => exact .error e rfl
  exact ⟨fun id => hnote (.addDigitizer id),
    fun kind buffer id timestamp => hnote (.writeBuffer kind buffer id timestamp)⟩

/-! ## Without the logs -/

/-- The session of the board behind the log. -/
def Session.forget (s : Session (LoggedBoard β)) : Session β :=
  { s with board := s.board.board }

/-- The session and the writer behind their logs. -/
def Session.forgetBoth (s : Session (LoggedBoard β) × LoggedWriter ω) : Session β × ω :=
  (s.1.forget, s.2.writer)

/-- A session of a board as one of the logged board, the log being empty. -/
def Session.logged (s : Session β) : Session (LoggedBoard β) :=
  { s with board := { board := s.board } }

theorem Session.twinPairs_iff {s : Session (LoggedBoard β) × LoggedWriter ω}
    {t : Session β × ω} : Session.TwinPairs LoggedBoard.Behind (fun l w => l.writer = w) s t ↔
      Session.forgetBoth s = t := by
  constructor
  · rintro ⟨⟨_, _, ⟨rfl, rfl⟩, ht⟩, hw⟩
    exact Prod.ext ht.symm hw
  · rintro rfl
    exact ⟨⟨s.1.board.board, s.1.waited, ⟨rfl, rfl⟩, rfl⟩, rfl⟩

/-- The run behind the logs. -/
def SessionRun.forget (r : SessionRun (LoggedBoard β) (LoggedWriter ω)) : SessionRun β ω where
  session := r.session.forget
  writer := r.writer.writer
  halfClosed := r.halfClosed

theorem SessionRun.twins_iff {r : SessionRun (LoggedBoard β) (LoggedWriter ω)}
    {q : SessionRun β ω} :
    r.Twins LoggedBoard.Behind (fun l w => l.writer = w) q ↔ r.forget = q := by
  obtain ⟨session, writer, halfClosed⟩ := q
  simp only [SessionRun.Twins, Session.twinPairs_iff, Session.forgetBoth, forget,
    SessionRun.mk.injEq, Prod.mk.injEq, and_assoc]

variable [Board β] [DataWriter ω]

/-- Nothing has been done with the board, and nothing is logged. -/
def SessionRun.ofLogged (board : β) (options : SessionOptions) (writer : ω) :
    SessionRun (LoggedBoard β) (LoggedWriter ω) :=
  .ofBoard { board } options { writer }

/-- The logs change neither what an operation answers nor what it leaves behind. -/
theorem SessionCall.perform_forget (c : SessionCall)
    (s : Session (LoggedBoard β) × LoggedWriter ω) :
    c.perform (Session.forgetBoth s) = match c.perform s with
      | .ok a s' => .ok a (Session.forgetBoth s')
      | .error e s' => .error e (Session.forgetBoth s') := by
  have h := c.perform_simulates (LoggedBoard.twins β) (LoggedWriter.twins ω)
  obtain ⟨a, s', t', hs, ht, h'⟩ | ⟨e, s', t', hs, ht, h'⟩ :=
    h.cases (Session.twinPairs_iff.2 rfl : Session.TwinPairs _ _ s (Session.forgetBoth s))
  all_goals
    obtain rfl := Session.twinPairs_iff.1 h'
    rw [hs, ht]

/-- The logs change no run. -/
theorem SessionRun.run_forget (r : SessionRun (LoggedBoard β) (LoggedWriter ω))
    (calls : List SessionCall) : (r.run calls).forget = r.forget.run calls :=
  twins_iff.1 (run_twins (LoggedBoard.twins β) (LoggedWriter.twins ω) (twins_iff.2 rfl) calls)

end PulseDaq
