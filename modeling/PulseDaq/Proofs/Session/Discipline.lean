import PulseDaq.Proofs.Session.Buffers
import PulseDaq.Proofs.Session.StateMachine

/-!
# Board calls in order

A session keeps the books of its board balanced, whatever the board answers: there is one readout
buffer for the board to free exactly if the session holds one, and one acquisition for it to stop
exactly if the session is acquiring. Nothing is freed or stopped twice, the board is read only while
it is acquiring, and is released only when there is nothing left to free or to stop.

* `Session.Disciplined`: the invariant, kept by every operation (`SessionCall.perform_disciplined`).
* `SessionRun.board_calls_disciplined`: the books after any run.
-/

namespace PulseDaq

open BoardLog (Books)

variable {β ω : Type}

namespace Session

/-- Readout buffers that the session holds. -/
def held (s : Session β) : Int :=
  if s.readout.isSome then 1 else 0

/-- Acquisitions that the session has running. -/
def acquiring (s : Session β) : Int :=
  if s.state = .acquiring then 1 else 0

/-- The books of the board are those of the session. Before `prepare` there is no readout buffer,
and there are records of the layout that a record buffer can be made for. -/
structure Disciplined (k : Nat) (s : Session (LoggedBoard β)) : Prop where
  books : Books s.held s.acquiring k s.board.log
  early : s.state = .closed ∨ s.state = .initialised → s.readout = none
  sized : ∀ layout, s.layout = some layout → 0 < layout.elementSize

/-- A session that is unchanged but for calls that have kept the books as they were. -/
def Balanced (k : Nat) (s₀ s : Session (LoggedBoard β)) : Prop :=
  s₀.Unchanged s ∧ Books s₀.held s₀.acquiring k s.board.log

variable {k : Nat} {s₀ : Session (LoggedBoard β)}

theorem Disciplined.balanced (h : s₀.Disciplined k) : Balanced k s₀ s₀ :=
  ⟨.refl s₀, h.books⟩

theorem Disciplined.of_balanced {k' : Nat} {s : Session (LoggedBoard β)} (h : s₀.Disciplined k)
    (hs : Balanced k' s₀ s) : s.Disciplined k' where
  books := by
    rw [held, acquiring, hs.1.readout, hs.1.state]
    exact hs.2
  early hstate := by
    rw [← Option.not_isSome_iff_eq_none, hs.1.readout, Option.not_isSome_iff_eq_none]
    exact h.early (hs.1.state ▸ hstate)
  sized := hs.1.layout ▸ h.sized

variable [Board β]

/-! ## Before an acquisition -/

theorem configure_disciplined (h : s₀.Disciplined k) (settings : List Setting) :
    Triple (Balanced k s₀) (configure settings) (fun _ => Disciplined k) fun _ => Disciplined k :=
  (configure_triple s₀.blind_unchanged.1
    (R := fun l : LoggedBoard β => Books s₀.held s₀.acquiring k l.log)
    (fun _ _ _ => LoggedBoard.set_books _ _ _) settings).imp
    (fun _ _ hs => h.of_balanced ⟨hs.1.2, hs.2⟩) fun _ _ hs => h.of_balanced hs

/-- The new layout has been made of values of the board. -/
theorem initialise_disciplined [DataWriter ω] (h : s₀.Disciplined k) :
    Triple (fun s : Session (LoggedBoard β) × ω => Balanced k s₀ s.1) initialise
      (fun _ s => s.1.Disciplined k) fun _ s => s.1.Disciplined k := by
  intro s hs
  have hinitialise := initialise_triple s₀.blind_unchanged.1
    (R := fun l : LoggedBoard β => Books s₀.held s₀.acquiring k l.log) (V := fun _ _ _ => True)
    (fun f i => (LoggedBoard.get_books f i : Triple _ _ _ _).imp (fun _ _ h => ⟨trivial, h⟩)
      fun _ _ h => h) s.2
  refine hinitialise.imp ?_ (fun _ _ hs => h.of_balanced hs.1) s ⟨hs, rfl⟩
  rintro _ ⟨_, w⟩ ⟨s₁, layout, ⟨hstate, hs₁⟩, hbooks, hlayout, rfl, -⟩
  have hclosed := h.of_balanced ⟨hs₁, hbooks⟩
  have hbooks := hclosed.books
  rw [show s₁.acquiring = 0 by rw [acquiring, hstate, if_neg nofun]] at hbooks
  refine ⟨hbooks, fun _ => hclosed.early (.inl hstate), ?_⟩
  rintro _ ⟨⟩
  exact hlayout.elementSize_pos

/-- The readout buffer of an initialised session is its only one, and one that is refused is handed
back. -/
theorem prepare_disciplined (h : s₀.Disciplined k) (hstate : s₀.state = .initialised) :
    Triple (Balanced k s₀) prepare (fun _ => Disciplined k) fun _ => Disciplined k := by
  have hheld : s₀.held = 0 := by rw [held, h.early (.inr hstate)]; rfl
  have hstopped : s₀.acquiring = 0 := by rw [acquiring, hstate, if_neg nofun]
  unfold Balanced
  rw [hheld, hstopped]
  have hprepare := prepare_triple s₀.blind_unchanged.1
    (R := fun l : LoggedBoard β => Books 0 0 k l.log) (Q := fun l => Books 1 0 k l.log)
    (A := fun _ => True)
    (LoggedBoard.allocate_books.imp (fun _ _ h => ⟨trivial, h⟩) fun _ _ h => h)
    LoggedBoard.free_books
  refine hprepare.imp ?_ ?_
  · rintro _ _ ⟨s₁, layout, readout, records, ⟨-, hs₁⟩, hbooks, -, -, -, rfl⟩
    exact ⟨hbooks, nofun, hs₁.layout ▸ h.sized⟩
  · rintro _ s ⟨hs, hbooks | ⟨-, layout, capacity, e, hlayout, hrecords⟩⟩
    · exact h.of_balanced ⟨hs, by rwa [hheld, hstopped]⟩
    · obtain ⟨records, hok⟩ := exists_recordsFor s.options capacity
        (h.sized layout (hs.layout ▸ hlayout))
      rw [hok] at hrecords
      cases hrecords

/-! ## Acquisition -/

theorem start_disciplined (h : s₀.Disciplined k) (hstate : s₀.state = .ready) (patience : Nat) :
    Triple (Balanced k s₀) (start patience) (fun _ => Disciplined k) fun _ => Disciplined k := by
  have hstopped : s₀.acquiring = 0 := by rw [acquiring, hstate, if_neg nofun]
  unfold Balanced
  rw [hstopped]
  have hstart := start_triple s₀.blind_unchanged.1
    (R := fun l : LoggedBoard β => Books s₀.held 0 k l.log) (Q := fun l => Books s₀.held 1 k l.log)
    LoggedBoard.get_books LoggedBoard.start_books patience
  have hkept (s : Session (LoggedBoard β)) (hs : s₀.Unchanged s)
      (hbooks : Books s₀.held 0 k s.board.log) : s.Disciplined k :=
    h.of_balanced ⟨hs, hstopped ▸ hbooks⟩
  refine hstart.imp (fun started s hasked => ?_) fun _ s hs => hkept s hs.1 hs.2
  cases started with
  | false => exact hkept s hasked.1.2 hasked.2
  | true =>
    obtain ⟨s₁, ⟨-, hs₁⟩, hbooks, rfl⟩ := hasked
    refine ⟨?_, nofun, hs₁.layout ▸ h.sized⟩
    have hheld : s₁.held = s₀.held := by rw [held, held, hs₁.readout]
    exact hheld ▸ hbooks

/-- A running acquisition is read, maybe several times. -/
theorem acquire_disciplined [DataWriter ω] (h : s₀.Disciplined k) (hstate : s₀.state = .acquiring)
    (timestamp : UInt64) :
    Triple (fun s : Session (LoggedBoard β) × ω => Balanced k s₀ s.1) (acquire timestamp)
      (fun _ s => ∃ k, s.1.Disciplined k) fun _ s => ∃ k, s.1.Disciplined k := by
  intro s hs
  have hrunning : s₀.acquiring = 1 := by rw [acquiring, if_pos hstate]
  have hacquire := acquire_triple s₀.blind_unchanged
    (R := fun l : LoggedBoard β => ∃ k, Books s₀.held 1 k l.log) LoggedBoard.read_books timestamp
    s.2
  refine hacquire.imp ?_ ?_ s ⟨⟨hs.1, k, hrunning ▸ hs.2⟩, rfl⟩
  · rintro _ ⟨_, w⟩ ⟨s₁, stats, records, ⟨-, hs₁⟩, ⟨k', hbooks⟩, rfl⟩
    have hdisciplined := h.of_balanced ⟨hs₁, hrunning.symm ▸ hbooks⟩
    exact ⟨k', hdisciplined.books, hdisciplined.early, hdisciplined.sized⟩
  · rintro _ s ⟨⟨hs, k', hbooks⟩, -⟩
    exact ⟨k', h.of_balanced ⟨hs, hrunning.symm ▸ hbooks⟩⟩

theorem stop_disciplined (h : s₀.Disciplined k) (hstate : s₀.state = .acquiring) :
    Triple (Balanced k s₀) stop (fun _ => Disciplined k) fun _ => Disciplined k := by
  have hrunning : s₀.acquiring = 1 := by rw [acquiring, if_pos hstate]
  unfold Balanced
  rw [hrunning]
  have hstop := stop_triple s₀.blind_unchanged.1
    (R := fun l : LoggedBoard β => Books s₀.held 1 k l.log) (Q := fun l => Books s₀.held 0 k l.log)
    LoggedBoard.stop_books fun _ h => h
  refine hstop.imp ?_ ?_
  · rintro _ _ ⟨s₁, ⟨-, hs₁⟩, hbooks, rfl⟩
    have hheld : s₁.held = s₀.held := by rw [held, held, hs₁.readout]
    exact ⟨hheld ▸ hbooks, nofun, hs₁.layout ▸ h.sized⟩
  · rintro _ s ⟨hs, ⟨-, hbooks⟩ | hbooks⟩
    · exact h.of_balanced ⟨hs, hrunning.symm ▸ hbooks⟩
    · exact h.of_balanced ⟨hs, hrunning.symm ▸ hbooks⟩

/-! ## The end -/

/-- Wherever closing fails, nothing is left to be freed or stopped that the session does not know
of. -/
theorem close_disciplined (h : s₀.Disciplined k) :
    Triple (Balanced k s₀) close (fun _ => Disciplined k) fun _ => Disciplined k := by
  intro s hs
  by_cases hclosed : s.state = .closed
  · rw [close_closed hclosed]
    exact h.of_balanced hs
  have hfree (s : Session (LoggedBoard β)) (readout : ReadoutBuffer) (hs : s₀.Unchanged s)
      (hreadout : s.readout = some readout) :
      Triple (fun l : LoggedBoard β => Books s₀.held 0 k l.log) (Board.free readout)
        (fun _ l => Books 0 0 k l.log) fun _ l => Books 0 0 k l.log := by
    rw [show s₀.held = 1 by rw [held, ← hs.readout, hreadout]; rfl]
    exact LoggedBoard.free_books readout
  have hnone (s : Session (LoggedBoard β)) (hs : s₀.Unchanged s) (hreadout : s.readout = none)
      (b : LoggedBoard β) (hb : Books s₀.held 0 k b.log) : Books 0 0 k b.log := by
    rwa [show s₀.held = 0 by rw [held, ← hs.readout, hreadout]; rfl] at hb
  have hclose := close_triple s₀.blind_unchanged.1
    (R := fun l : LoggedBoard β => Books s₀.held 1 k l.log) (Q := fun l => Books s₀.held 0 k l.log)
    LoggedBoard.stop_books (fun _ h => h) hfree hnone LoggedBoard.close_books
  refine hclose.imp ?_ ?_ s ⟨⟨hclosed, hs.1⟩, ?_⟩
  · rintro _ _ ⟨s₁, hs₁, hbooks, rfl⟩
    exact ⟨hbooks, fun _ => rfl, hs₁.layout ▸ h.sized⟩
  · rintro _ s (⟨hstate, hs, hbooks⟩ | ⟨s₁, records, hs₁, hbooks, rfl⟩)
    · refine h.of_balanced ⟨hs, ?_⟩
      rwa [acquiring, ← hs.state, if_pos hstate]
    · refine ⟨?_, fun _ => rfl, hs₁.layout ▸ h.sized⟩
      rw [held, acquiring, if_neg s₁.state.stopped_ne]
      exact (or_self_iff.1 hbooks :)
  · have hbooks := hs.2
    rw [acquiring, ← hs.1.state] at hbooks
    split
    next hacq => rwa [if_pos hacq] at hbooks
    next hnot => rwa [if_neg hnot] at hbooks

end Session

/-! ## Runs -/

section Runs

variable [Board β] [DataWriter ω]

/-- Every operation keeps the books, and reads the board only if the session is acquiring. -/
theorem SessionCall.perform_disciplined {k : Nat} {s₀ : Session (LoggedBoard β)}
    (h : s₀.Disciplined k) (c : SessionCall) (w : ω) :
    Triple (· = (s₀, w)) c.perform
      (fun _ s => ∃ k', s.1.Disciplined k' ∧ (s₀.state ≠ .acquiring → k' = k))
      fun _ s => ∃ k', s.1.Disciplined k' ∧ (s₀.state ≠ .acquiring → k' = k) := by
  have hsame {s : Session (LoggedBoard β)} (hs : s.Disciplined k) :
      ∃ k', s.Disciplined k' ∧ (s₀.state ≠ .acquiring → k' = k) :=
    ⟨k, hs, fun _ => rfl⟩
  by_cases hrefused : ∃ op state, c.requires = some (op, state) ∧ s₀.state ≠ state
  · obtain ⟨op, state, hc, hs⟩ := hrefused
    rintro _ rfl
    rw [perform_refused hc hs]
    exact hsame h
  simp only [not_exists, not_and, not_not] at hrefused
  have hself (s : Session (LoggedBoard β) × ω) (hs : s = (s₀, w)) : Session.Balanced k s₀ s.1 :=
    hs ▸ h.balanced
  cases c with
  | configure settings =>
    exact (Session.alone_triple (Session.configure_disciplined h settings)).conseq hself
      (fun _ _ => hsame) fun _ _ => hsame
  | initialise =>
    exact (Session.initialise_disciplined h).conseq hself (fun _ _ => hsame) fun _ _ => hsame
  | prepare =>
    exact (Session.alone_triple (Session.prepare_disciplined h (hrefused _ _ rfl))).conseq hself
      (fun _ _ => hsame) fun _ _ => hsame
  | start patience =>
    have hstart := Session.start_disciplined h (hrefused _ _ rfl) patience
    exact .bind ((Session.alone_triple hstart).conseq hself (fun _ _ => hsame) fun _ _ => hsame)
      fun _ => .pure _ fun _ h => h
  | acquire timestamp =>
    have hstate := hrefused _ _ rfl
    have hleft {s : Session (LoggedBoard β)} (hs : ∃ k, s.Disciplined k) :
        ∃ k', s.Disciplined k' ∧ (s₀.state ≠ .acquiring → k' = k) :=
      hs.imp fun _ hs => ⟨hs, fun hne => absurd hstate hne⟩
    exact .bind ((Session.acquire_disciplined h hstate timestamp).conseq hself (fun _ _ => hleft)
      fun _ _ => hleft) fun _ => .pure _ fun _ h => h
  | stop =>
    exact (Session.alone_triple (Session.stop_disciplined h (hrefused _ _ rfl))).conseq hself
      (fun _ _ => hsame) fun _ _ => hsame
  | close =>
    exact (Session.alone_triple (Session.close_disciplined h)).conseq hself (fun _ _ => hsame)
      fun _ _ => hsame

/-- One operation of a run. -/
theorem SessionRun.step_disciplined {k : Nat} {r : SessionRun (LoggedBoard β) ω}
    (h : r.session.Disciplined k) (c : SessionCall) :
    ∃ k', (r.step c).session.Disciplined k' ∧ (r.session.state ≠ .acquiring → k' = k) := by
  have hc := SessionCall.perform_disciplined h c r.writer
  unfold step
  split
  next hrun => exact hc.ok (s := (r.session, r.writer)) rfl hrun
  next hrun => exact hc.error (s := (r.session, r.writer)) rfl hrun

theorem SessionRun.run_disciplined {k : Nat} {r : SessionRun (LoggedBoard β) ω}
    (h : r.session.Disciplined k) (calls : List SessionCall) :
    ∃ k', (r.run calls).session.Disciplined k' := by
  induction calls generalizing r k with
  | nil => exact ⟨k, h⟩
  | cons c calls ih =>
    obtain ⟨k', hstep, -⟩ := step_disciplined h c
    exact ih hstep

/-- After any operations on a fresh session, with whatever outcomes, the log of its board (which
changes nothing) says: the readout buffers that were allocated and not handed back are the one that
the session holds, if any; the starts that no stop has followed are one exactly if the session is
acquiring, else none; every call was in order when it was made; and an operation that finds the
session in any other state than acquiring does not read. -/
theorem SessionRun.board_calls_disciplined (board : β) (options : SessionOptions) (writer : ω)
    (calls : List SessionCall) :
    let r := (SessionRun.ofLogged board options writer).run calls
    let log := r.session.board.log
    r.forget = (SessionRun.ofBoard board options writer).run calls ∧
      log.buffers = (if r.session.readout.isSome then 1 else 0) ∧
      log.running = (if r.session.state = .acquiring then 1 else 0) ∧
      log.Lawful ∧
      ∀ c, r.session.state ≠ .acquiring → (r.step c).session.board.log.reads = log.reads := by
  intro r log
  have hfresh : (SessionRun.ofLogged board options writer).session.Disciplined 0 :=
    ⟨BoardLog.books_nil, fun _ => rfl, nofun⟩
  obtain ⟨k, h⟩ := run_disciplined hfresh calls
  refine ⟨run_forget _ calls, h.books.buffers, h.books.running, h.books.lawful, fun c hstate => ?_⟩
  obtain ⟨k', hstep, hk⟩ := step_disciplined h c
  rw [hstep.books.reads, hk hstate]
  exact h.books.reads.symm

end Runs

end PulseDaq
