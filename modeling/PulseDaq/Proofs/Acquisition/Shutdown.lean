import PulseDaq.Proofs.Acquisition.Logged
import PulseDaq.Proofs.Session.Effects

/-!
# How acquisitions end

An acquisition always ends with an attempt to close its session. The session is closed, its readout
buffer handed back and the board released, unless a call of this attempt fails: then no other call
follows it, and what it would have led to is left undone.

* `Shutdown`: the ways to end, each with the last calls of the board.
* `Acquisition.finish_shutdown`: closing.
* `Acquisition.Underway`: the invariant of the steps before.
* `Acquisition.run_shutdown`: every acquisition of a session that is ready.
-/

namespace PulseDaq

/-- Nothing has been handed back and the board has not been released. -/
def BoardLog.Retained (log : BoardLog) : Prop :=
  ∀ e ∈ log, e.1.method ≠ .free ∧ e.1.method ≠ .close

theorem BoardLog.Retained.cons {log : BoardLog} (h : log.Retained) {c : BoardCall}
    (hfree : c.method ≠ .free) (hclose : c.method ≠ .close) (r : Except BoardError Unit) :
    BoardLog.Retained ((c, r) :: log) :=
  List.forall_mem_cons.2 ⟨⟨hfree, hclose⟩, h⟩

/-- A readout buffer, if there was one, has just been handed back. -/
def BoardLog.HandedBack (held : Bool) (log : BoardLog) : Prop :=
  if held then log.JustDone .free Retained else log.Retained

variable {β ω : Type}

/-- How a session ends that has held a readout buffer or not, and with which error. -/
inductive Shutdown (held : Bool) : Session (LoggedBoard β) → Option SessionError → Prop
  | closed {s : Session (LoggedBoard β)} {error : Option SessionError} (state : s.state = .closed)
    (readout : s.readout = none) (log : s.board.log.JustDone .close (BoardLog.HandedBack held)) :
    Shutdown held s error
  /-- The board could not be stopped, so nothing was handed back and the board was not released. -/
  | stopFailed {s : Session (LoggedBoard β)} {error : SessionError} (state : s.state = .acquiring)
    (readout : s.readout.isSome = held) (log : s.board.log.JustFailed .stop BoardLog.Retained) :
    Shutdown held s (some error)
  /-- The board could not free the readout buffer, which is gone, and was not released. -/
  | freeFailed {s : Session (LoggedBoard β)} {error : SessionError} (state : s.state = .ready)
    (readout : s.readout = none) (log : s.board.log.JustFailed .free BoardLog.Retained) :
    Shutdown held s (some error)
  /-- The board could not be released. -/
  | closeFailed {s : Session (LoggedBoard β)} {error : SessionError} (state : s.state = .ready)
    (readout : s.readout = none)
    (log : s.board.log.JustFailed .close (BoardLog.HandedBack held)) :
    Shutdown held s (some error)

namespace Acquisition

variable [Board β] {held : Bool} {s : Session (LoggedBoard β)}

/-! ## Closing -/

/-- Before the session is closed: an open session and a board that has kept everything. -/
structure Ending (held : Bool) (s : Session (LoggedBoard β)) : Prop where
  state : s.state = .ready ∨ s.state = .acquiring
  readout : s.readout.isSome = held
  retained : s.board.log.Retained

/-- The attempt to close. -/
theorem finish_shutdown (h : Ending held s) (error : Option SessionError) :
    ∃ error', (finish s error).1.phase = .finished error' ∧
      Shutdown held (finish s error).1.session error' := by
  have hstop : Triple (fun l : LoggedBoard β => l.log.Retained) Board.stop
      (fun _ l => l.log.Retained) fun _ l => l.log.JustFailed .stop BoardLog.Retained := by
    refine (LoggedBoard.note_just .stop _).imp ?_ fun _ _ h => h
    rintro _ l ⟨c, earlier, hlog, hc, hretained⟩
    exact hlog ▸ hretained.cons (hc ▸ nofun) (hc ▸ nofun) _
  have hback (l : LoggedBoard β) (hl : l.log.JustFailed .stop BoardLog.Retained) :
      l.log.Retained := by
    obtain ⟨c, e, earlier, hlog, hc, hretained⟩ := hl
    exact hlog ▸ hretained.cons (hc ▸ nofun) (hc ▸ nofun) _
  have hfree (s : Session (LoggedBoard β)) (readout : ReadoutBuffer)
      (hs : (s.state = .ready ∨ s.state = .acquiring) ∧ s.readout.isSome = held)
      (hreadout : s.readout = some readout) :
      Triple (fun l : LoggedBoard β => l.log.Retained) (Board.free readout)
        (fun _ l => l.log.HandedBack held)
        fun _ l => l.log.JustFailed .free BoardLog.Retained := by
    have hheld : held = true := by rw [← hs.2, hreadout]; rfl
    refine (LoggedBoard.note_just (.free readout.capacity) _).imp (fun _ l h => ?_) fun _ _ h => h
    rw [BoardLog.HandedBack, if_pos hheld]
    exact h
  have hnone (s : Session (LoggedBoard β))
      (hs : (s.state = .ready ∨ s.state = .acquiring) ∧ s.readout.isSome = held)
      (hreadout : s.readout = none) (l : LoggedBoard β) (hl : l.log.Retained) :
      l.log.HandedBack held := by
    have hheld : held = false := by rw [← hs.2, hreadout]; rfl
    rw [BoardLog.HandedBack, hheld]
    exact hl
  have hclose : Triple (fun l : LoggedBoard β => l.log.HandedBack held) Board.close
      (fun _ l => l.log.JustDone .close (BoardLog.HandedBack held))
      fun _ l => l.log.JustFailed .close (BoardLog.HandedBack held) :=
    LoggedBoard.note_just .close _
  have hblind : Session.Blind fun s : Session (LoggedBoard β) =>
      (s.state = .ready ∨ s.state = .acquiring) ∧ s.readout.isSome = held :=
    fun _ _ _ h => h
  have hopen : s.state ≠ .closed := by
    intro hclosed
    obtain hstate | hstate := h.state
    all_goals
      rw [hclosed] at hstate
      cases hstate
  have hrun := Session.close_triple hblind hstop hback hfree hnone hclose s
    ⟨⟨hopen, h.state, h.readout⟩, by split <;> exact h.retained⟩
  unfold finish
  cases hclosing : s.close with
  | ok _ s' =>
    rw [hclosing] at hrun
    obtain ⟨s₁, -, hlog, rfl⟩ := hrun
    exact ⟨error, rfl, .closed rfl rfl hlog⟩
  | error e s' =>
    rw [hclosing] at hrun
    obtain ⟨error', herror⟩ : ∃ error', (error <|> some e) = some error' := by
      cases error with
      | none => exact ⟨e, rfl⟩
      | some error' => exact ⟨error', rfl⟩
    refine ⟨some error', congrArg AcquisitionPhase.finished herror, ?_⟩
    obtain ⟨hstate, hs, hlog⟩ | ⟨s₁, records, ⟨hstate, -⟩, hfailed, rfl⟩ := hrun
    · exact .stopFailed hstate hs.2 hlog
    have hready : s₁.state.stopped = .ready := by
      obtain hstate | hstate := hstate
      all_goals rw [hstate]; rfl
    obtain hlog | hlog := hfailed
    · exact .freeFailed hready rfl hlog
    · exact .closeFailed hready rfl hlog

/-! ## Steps -/

/-- An acquisition that has not come to its end. -/
structure Underway (held : Bool) (a : Acquisition (LoggedBoard β)) : Prop where
  phase : a.phase = .waiting ∧ a.session.state = .ready ∨
    (∃ last, a.phase = .cycling last) ∧ a.session.state = .acquiring
  readout : a.session.readout.isSome = held
  retained : a.session.board.log.Retained

/-- An acquisition that has come to its end. -/
def Over (held : Bool) (a : Acquisition (LoggedBoard β)) : Prop :=
  ∃ error, a.phase = .finished error ∧ Shutdown held a.session error

omit [Board β] in
theorem note_retained {α : Type} {c : BoardCall} (hfree : c.method ≠ .free)
    (hclose : c.method ≠ .close) (op : EStateM BoardError β α) :
    Preserves (fun l : LoggedBoard β => l.log.Retained) (LoggedBoard.note c op) :=
  LoggedBoard.note_triple (X := BoardLog.Retained) (Y := BoardLog.Retained)
    (Z := BoardLog.Retained) op (fun _ h => h.cons hfree hclose _)
    fun _ _ h => h.cons hfree hclose _

theorem read_retained :
    Preserves (fun s : LoggedBoard β × ReadoutBuffer => s.1.log.Retained) Board.read :=
  LoggedBoard.read_triple (X := BoardLog.Retained) (Y := BoardLog.Retained)
    (Z := BoardLog.Retained) Board.read (fun _ h => h.cons (c := .read) nofun nofun _)
    fun _ _ h => h.cons (c := .read) nofun nofun _

/-- Waiting for the board leads to a cycle, to the end, or, unless it is time to stop, to more
waiting. -/
theorem stepWaiting_underway (hstate : s.state = .ready) (hreadout : s.readout.isSome = held)
    (hretained : s.board.log.Retained) (r : Reading) :
    Underway held (stepWaiting r s).1 ∧
        (r.keepRunning = false → ∃ last, (stepWaiting r s).1.phase = .cycling last) ∨
      Over held (stepWaiting r s).1 := by
  have hblind : Session.Blind fun s : Session (LoggedBoard β) =>
      s.state = .ready ∧ s.readout.isSome = held := fun _ _ _ h => h
  have hrun := Session.poll_triple hblind (R := fun l : LoggedBoard β => l.log.Retained)
    (fun f index => note_retained (c := .get f index) nofun nofun _)
    (note_retained (c := .start) nofun nofun _) s ⟨⟨hstate, hreadout⟩, hretained⟩
  unfold stepWaiting
  cases hpoll : s.poll with
  | error e s' =>
    rw [hpoll] at hrun
    exact .inr (finish_shutdown ⟨.inl hrun.1.1, hrun.1.2, hrun.2⟩ _)
  | ok started s' =>
    rw [hpoll] at hrun
    cases started with
    | true =>
      obtain ⟨s₁, ⟨-, -, hreadout⟩, hretained, rfl⟩ := hrun
      exact .inl ⟨⟨.inr ⟨⟨none, rfl⟩, rfl⟩, hreadout, hretained⟩, fun _ => ⟨none, rfl⟩⟩
    | false =>
      obtain ⟨⟨hready, -, hreadout⟩, hretained⟩ := hrun
      dsimp only
      split
      next hkeep =>
        exact .inl ⟨⟨.inl ⟨rfl, hready⟩, hreadout, hretained⟩,
          fun hstop => absurd hkeep (by simp [hstop])⟩
      · exact .inr (finish_shutdown ⟨.inl hready, hreadout, hretained⟩ _)

variable [DataWriter ω]

/-- A cycle leads to another one or to the end, and to the end if it is time to stop. -/
theorem stepCycling_underway (hstate : s.state = .acquiring) (hreadout : s.readout.isSome = held)
    (hretained : s.board.log.Retained) (r : Reading) (last : Option UInt64) (w : ω) :
    Underway held (stepCycling r last s w).1.1 ∧ r.keepRunning = true ∨
      Over held (stepCycling r last s w).1.1 := by
  have hblind : Session.BlindToReads fun s : Session (LoggedBoard β) =>
      s.state = .acquiring ∧ s.readout.isSome = held :=
    ⟨fun _ _ _ h => h, fun _ _ h hs => ⟨hs.1, h.symm.trans hs.2⟩⟩
  have hrun := Session.acquire_triple hblind (R := fun l : LoggedBoard β => l.log.Retained)
    read_retained (stamp last r.now) w (s, w) ⟨⟨⟨hstate, hreadout⟩, hretained⟩, rfl⟩
  unfold stepCycling
  dsimp only
  split
  next hkeep =>
    cases hacquire : Session.acquire (stamp last r.now) (s, w) with
    | error e left =>
      rw [hacquire] at hrun
      obtain ⟨⟨⟨hstate, hreadout⟩, hretained⟩, -⟩ := hrun
      exact .inr (finish_shutdown ⟨.inr hstate, hreadout, hretained⟩ _)
    | ok cycle left =>
      rw [hacquire] at hrun
      obtain ⟨s₁, stats, records, ⟨hstate, -, hreadout⟩, hretained, hleft⟩ := hrun
      obtain ⟨_, w'⟩ := left
      obtain rfl : _ = _ := hleft
      exact .inl ⟨⟨.inr ⟨⟨_, rfl⟩, hstate⟩, hreadout, hretained⟩, hkeep⟩
  · exact .inr (finish_shutdown ⟨.inr hstate, hreadout, hretained⟩ _)

/-- A step goes on or comes to the end. If it is time to stop, it goes on only from waiting to a
cycle. -/
theorem step_underway {a : Acquisition (LoggedBoard β)} (h : Underway held a) (r : Reading)
    (w : ω) :
    Underway held (step r a w).1.1 ∧ (r.keepRunning = false →
        a.phase = .waiting ∧ ∃ last, (step r a w).1.1.phase = .cycling last) ∨
      Over held (step r a w).1.1 := by
  unfold step
  obtain ⟨hphase, hstate⟩ | ⟨⟨last, hphase⟩, hstate⟩ := h.phase
  · rw [hphase]
    refine (stepWaiting_underway hstate h.readout h.retained r).imp_left fun hgoes => ?_
    exact ⟨hgoes.1, fun hstop => ⟨rfl, hgoes.2 hstop⟩⟩
  · rw [hphase]
    refine (stepCycling_underway hstate h.readout h.retained r last w).imp_left fun hgoes => ?_
    exact ⟨hgoes.1, fun hstop => absurd hgoes.2 (by simp [hstop])⟩

/-- The end is the end. -/
theorem step_over {a : Acquisition (LoggedBoard β)} (h : Over held a) (r : Reading) (w : ω) :
    step r a w = ((a, []), w) := by
  obtain ⟨error, hphase, -⟩ := h
  unfold step
  rw [hphase]

/-- Told twice to stop, an acquisition comes to its end. -/
theorem step_stopping {a : Acquisition (LoggedBoard β)} (h : Underway held a) (w : ω) :
    Over held (step stopping (step stopping a w).1.1 (step stopping a w).2).1.1 := by
  obtain ⟨hgoes, hphase⟩ | hover := step_underway h stopping w
  · obtain ⟨-, last, hcycling⟩ := hphase rfl
    obtain ⟨-, hwaiting⟩ | hover := step_underway hgoes stopping (step stopping a w).2
    · rw [(hwaiting rfl).1] at hcycling
      cases hcycling
    · exact hover
  · rwa [step_over hover]

/-- The steps of all readings and two more end the acquisition. -/
theorem runFrom_over (readings : List Reading) {news : List Progress}
    {a : Acquisition (LoggedBoard β)} (h : Underway held a ∨ Over held a) (w : ω) :
    Over held (runFrom news readings a w).1.1 := by
  induction readings generalizing news a w with
  | nil =>
    show Over held (step stopping (step stopping a w).1.1 (step stopping a w).2).1.1
    obtain h | h := h
    · exact step_stopping h w
    · rwa [step_over h, step_over h]
  | cons r readings ih =>
    refine ih (a := (step r a w).1.1) ?_ (step r a w).2
    obtain h | h := h
    · exact (step_underway h r w).imp_left And.left
    · rw [step_over h]
      exact .inr h

/-! ## Main result -/

/-- Whatever the board and the writer answer, and whenever it is told to stop, an acquisition of a
session that is ready ends with the attempt to close the session: the session is closed, its readout
buffer handed back and the board released, unless a call of this attempt has failed, which is then
the last one and an error of the acquisition. The logs change nothing about the acquisition. -/
theorem run_shutdown (readings : List Reading) (s : Session β) (w : ω) (hready : s.state = .ready) :
    run readings s w = forget (run readings s.logged (LoggedWriter.mk w [])) ∧
      ∃ error, (run readings s.logged (LoggedWriter.mk w [])).1.1.phase = .finished error ∧
        Shutdown s.readout.isSome (run readings s.logged (LoggedWriter.mk w [])).1.1.session
          error := by
  have hunderway : Underway s.readout.isSome { session := s.logged } :=
    ⟨.inl ⟨rfl, hready⟩, rfl, nofun⟩
  exact ⟨run_forget readings s.logged (LoggedWriter.mk w []),
    runFrom_over readings (.inl hunderway) _⟩

end Acquisition

/-- A board with one group that fails for good when it is read. -/
def boardFailingForGood : ScriptedBoard where
  registers := [((.groupEnableMask, none), 1)]
  failures
    | .read => [some (.board (-1) "dead")]
    | .stop => [some (.board (-1) "dead")]
    | _ => []

/-- A session of that board that is ready. -/
def readyToFail : Session ScriptedBoard :=
  ((SessionRun.ofBoard boardFailingForGood {} ({} : Totals)).run [.initialise, .prepare]).session

/-- The acquisition of that session. -/
def failedForGood :
    (Acquisition (LoggedBoard ScriptedBoard) × List Progress) × LoggedWriter Totals :=
  Acquisition.run [⟨true, 1⟩, ⟨true, 2⟩] readyToFail.logged (LoggedWriter.mk {} [])

/-- It leaves the session acquiring, with its readout buffer, and the board unreleased. -/
theorem failedForGood_stays_open :
    readyToFail.state = .ready ∧ readyToFail.readout.isSome ∧
      ∃ error, failedForGood.1.1.phase = .finished error ∧
        Shutdown true failedForGood.1.1.session error ∧
        failedForGood.1.1.session.state = .acquiring ∧
        failedForGood.1.1.session.readout.isSome ∧
        failedForGood.1.1.session.board.log.Retained := by
  have hready : readyToFail.state = .ready := by decide +kernel
  have hheld : readyToFail.readout.isSome = true := by decide +kernel
  have hstate : failedForGood.1.1.session.state = .acquiring := by decide +kernel
  have hreadout : failedForGood.1.1.session.readout.isSome = true := by decide +kernel
  obtain ⟨-, error, hphase, hshutdown⟩ :=
    Acquisition.run_shutdown [⟨true, 1⟩, ⟨true, 2⟩] readyToFail ({} : Totals) hready
  have hretained : ∀ e ∈ failedForGood.1.1.session.board.log,
      e.1.method ≠ .free ∧ e.1.method ≠ .close := by decide +kernel
  rw [hheld] at hshutdown
  unfold failedForGood at hstate hreadout hretained ⊢
  exact ⟨hready, hheld, error, hphase, hshutdown, hstate, hreadout, hretained⟩

end PulseDaq
