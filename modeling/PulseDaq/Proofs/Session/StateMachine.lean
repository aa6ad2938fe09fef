import PulseDaq.Proofs.Session.Effects
import PulseDaq.Proofs.Session.Logged

/-!
# The state machine of a session

Every operation but `close` has one state in which it does anything. Where an answer leaves the
session is laid down (`SessionCall.Leads`), and an error leaves it where it was.

* `SessionCall.requires`, `SessionCall.perform_refused`: an operation out of its state.
* `SessionCall.perform_leads`: answers and errors.
* `SessionCall.close_fails`: a close fails only if its last call has failed.
* `SessionCall.obeys`: all of this, of any session.
-/

namespace PulseDaq

/-- The state that an operation is for, unless it is for all of them. -/
def SessionCall.requires : SessionCall → Option (SessionOperation × SessionState)
  | configure _ => some (.configure, .closed)
  | initialise => some (.initialise, .closed)
  | prepare => some (.prepare, .initialised)
  | start _ => some (.start, .ready)
  | acquire _ => some (.acquire, .acquiring)
  | stop => some (.stop, .acquiring)
  | close => none

/-- In any other state an operation fails and changes nothing at all, the writer included. -/
theorem SessionCall.perform_refused {β ω : Type} [Board β] [DataWriter ω] {c : SessionCall}
    {op : SessionOperation} {state : SessionState} (hc : c.requires = some (op, state))
    {s : Session β} (hs : s.state ≠ state) (w : ω) :
    c.perform (s, w) = .error (.state op s.state) (s, w) := by
  cases c with
  | configure settings =>
    cases hc
    exact Session.alone_of_error w (bind_of_error (Session.require_refused hs _))
  | initialise =>
    cases hc
    exact bind_of_error (Session.alone_of_error w (Session.require_refused hs _))
  | prepare =>
    cases hc
    exact Session.alone_of_error w (bind_of_error (Session.require_refused hs _))
  | start patience =>
    cases hc
    exact bind_of_error (Session.alone_of_error w (Session.start_refused hs patience))
  | acquire timestamp =>
    cases hc
    exact bind_of_error (Session.acquire_outside hs timestamp w)
  | stop =>
    cases hc
    exact Session.alone_of_error w (bind_of_error (Session.require_refused hs _))
  | close => cases hc

/-- An answer in the first state leaves the session in the second one. -/
inductive SessionCall.Leads : SessionCall → SessionState → SessionState → Prop
  | configure (settings : List Setting) : Leads (.configure settings) .closed .closed
  | initialise : Leads .initialise .closed .initialised
  | prepare : Leads .prepare .initialised .ready
  | started (patience : Nat) : Leads (.start patience) .ready .acquiring
  | notStarted (patience : Nat) : Leads (.start patience) .ready .ready
  | acquire (timestamp : UInt64) : Leads (.acquire timestamp) .acquiring .acquiring
  | stop : Leads .stop .acquiring .ready
  | close (state : SessionState) : Leads .close state .closed

section Answers

variable {β ω : Type} [Board β] [DataWriter ω]

/-- Whether the answer says so or not, a session that is ready has started or is ready still. -/
theorem Session.start_leads (s₀ : Session β) (patience : Nat) :
    Triple s₀.Unchanged (start patience)
      (fun started s => s₀.state = .ready ∧ s.state = if started then .acquiring else .ready)
      fun _ => s₀.Unchanged := by
  have h := start_triple s₀.blind_unchanged.1 (R := fun _ => True) (Q := fun _ => True)
    (fun _ _ => .anything _) (Preserves.anything _) patience
  refine h.conseq (fun _ hs => ⟨hs, trivial⟩) ?_ fun _ _ h => h.1
  rintro started s hasked
  cases started with
  | true =>
    obtain ⟨s₁, ⟨hstate, hs₁⟩, -, rfl⟩ := hasked
    exact ⟨hs₁.state.symm.trans hstate, rfl⟩
  | false =>
    obtain ⟨⟨hstate, hs⟩, -⟩ := hasked
    exact ⟨hs.state.symm.trans hstate, hstate⟩

/-- Closing is for every state. -/
theorem Session.close_closes :
    Triple (fun _ : Session β => True) close (fun _ s => s.state = .closed) fun _ _ => True := by
  intro s _
  by_cases hs : s.state = .closed
  · rw [close_closed hs]
    exact hs
  have h := close_triple (P := fun _ : Session β => True) (fun _ _ _ h => h) (R := fun _ => True)
    (Q := fun _ => True) (F := fun _ => True) (C := fun _ => True) (S := fun _ => True)
    (G := fun _ => True) (D := fun _ => True) (Preserves.anything _) (fun _ h => h)
    (fun _ _ _ _ => Preserves.anything _) (fun _ _ _ _ h => h) (Preserves.anything _)
  refine h.imp ?_ (fun _ _ _ => trivial) s ⟨⟨hs, trivial⟩, by split <;> trivial⟩
  rintro _ _ ⟨s₁, -, -, rfl⟩
  rfl

namespace SessionCall

/-- An answer leads on, and an error of anything but a close leaves the session as it was. -/
theorem perform_leads (c : SessionCall) (s₀ : Session β) :
    Triple (fun s : Session β × ω => s₀.Unchanged s.1) c.perform
      (fun _ s => c.Leads s₀.state s.1.state)
      fun _ s => c ≠ .close → s₀.Unchanged s.1 := by
  have hP := s₀.blind_unchanged
  cases c with
  | configure settings =>
    have h := Session.configure_triple hP.1 (R := fun _ => True) (fun _ _ _ => .anything _) settings
    refine (Session.alone_triple h).conseq (fun _ hs => ⟨hs, trivial⟩) ?_ fun _ _ h _ => h.1
    rintro _ ⟨s, w⟩ ⟨⟨hstate, hs⟩, -⟩
    rw [← hs.state, hstate]
    exact .configure settings
  | initialise =>
    intro s hs
    have h := Session.initialise_triple hP.1 (R := fun _ => True) (V := fun _ _ _ => True)
      (fun _ _ => (Preserves.anything _).imp (fun _ _ _ => ⟨trivial, trivial⟩) fun _ _ h => h) s.2
    refine h.conseq (fun _ hs => hs) ?_ (fun _ _ h _ => h.1.1) s ⟨⟨hs, trivial⟩, rfl⟩
    rintro _ ⟨s, w⟩ ⟨s₁, layout, ⟨hstate, hs₁⟩, -, -, rfl, -⟩
    rw [← hs₁.state, hstate]
    exact .initialise
  | prepare =>
    have h := Session.prepare_triple hP.1 (R := fun _ => True) (Q := fun _ => True)
      (A := fun _ => True) ((Preserves.anything _).imp (fun _ _ _ => ⟨trivial, trivial⟩)
        fun _ _ h => h) fun _ => Preserves.anything _
    refine (Session.alone_triple h).conseq (fun _ hs => ⟨hs, trivial⟩) ?_ fun _ _ h _ => h.1
    rintro _ ⟨_, w⟩ ⟨s₁, layout, readout, records, ⟨hstate, hs₁⟩, -, -, -, -, rfl⟩
    rw [← hs₁.state, hstate]
    exact .prepare
  | start patience =>
    refine .bind ((Session.alone_triple (Session.start_leads s₀ patience)).imp_error
      fun _ _ h _ => h) fun started => .pure _ ?_
    rintro s ⟨hready, hs⟩
    rw [hready, hs]
    cases started with
    | true => exact .started patience
    | false => exact .notStarted patience
  | acquire timestamp =>
    intro s hs
    have h := Session.acquire_triple hP (R := fun _ => True) (Preserves.anything _) timestamp s.2
    have hcycle : Triple (fun s' : Session β × ω => (s₀.Unchanged s'.1 ∧ True) ∧ s'.2 = s.2)
        (Session.acquire timestamp)
        (fun _ s => (SessionCall.acquire timestamp).Leads s₀.state s.1.state)
        fun _ s => SessionCall.acquire timestamp ≠ .close → s₀.Unchanged s.1 := by
      refine h.imp ?_ fun _ _ h _ => h.1.1
      rintro _ ⟨s, w⟩ ⟨s₁, stats, records, ⟨hstate, hs₁⟩, -, rfl⟩
      rw [← hs₁.state, hstate]
      exact .acquire timestamp
    exact Triple.bind hcycle (fun _ => .pure _ fun _ h => h) s ⟨⟨hs, trivial⟩, rfl⟩
  | stop =>
    have h := Session.stop_triple hP.1 (R := fun _ => True) (Q := fun _ => True)
      (S := fun _ => True) (Preserves.anything _) fun _ _ => trivial
    refine (Session.alone_triple h).conseq (fun _ hs => ⟨hs, trivial⟩) ?_ fun _ _ h _ => h.1
    rintro _ ⟨_, w⟩ ⟨s₁, ⟨hstate, hs₁⟩, -, rfl⟩
    rw [← hs₁.state, hstate]
    exact .stop
  | close =>
    refine (Session.alone_triple (Session.close_closes (β := β))).conseq (fun _ _ => trivial) ?_
      fun _ _ _ h => absurd rfl h
    rintro _ s hs
    rw [hs]
    exact .close _

/-- Nothing is announced to the writer before everything else has succeeded. -/
theorem initialise_fails {s : Session β} {w : ω} {e : SessionError} {left : Session β × ω}
    (h : initialise.perform (s, w) = .error e left) :
    left.2 = w ∨ ∃ b, e = .writer b ∧ DataWriter.addDigitizer s.id w = .error b left.2 := by
  have hsame : Session.Blind fun s' : Session β => s'.id = s.id := fun _ _ _ h => h
  have hinitialise := Session.initialise_triple hsame (R := fun _ => True) (V := fun _ _ _ => True)
    (fun _ _ => (Preserves.anything _).imp (fun _ _ _ => ⟨trivial, trivial⟩) fun _ _ h => h) w
  obtain ⟨⟨hid, -⟩, hw⟩ := hinitialise.error (s := (s, w)) ⟨⟨rfl, trivial⟩, rfl⟩ h
  rwa [hid] at hw

/-- A call of a close has failed, and no other has followed it. -/
def CloseFailed (log : BoardLog) : Prop :=
  ∃ method ∈ [BoardMethod.stop, .free, .close], log.JustFailed method fun _ => True

/-- A close of a logged board fails only if the call that it has made last has failed. -/
theorem close_fails {s : Session (LoggedBoard β)} {w : ω} {e : SessionError}
    {left : Session (LoggedBoard β) × ω} (h : close.perform (s, w) = .error e left) :
    CloseFailed left.1.board.log := by
  by_cases hs : s.state = .closed
  · have hnone : close.perform (s, w) = .ok () (s, w) :=
      Session.alone_of_ok w (Session.close_closed hs)
    rw [hnone] at h
    cases h
  have hcall {α : Type} (c : BoardCall) (hc : c.method ∈ [BoardMethod.stop, .free, .close])
      (op : EStateM BoardError β α) :
      Triple (fun _ => True) (LoggedBoard.note c op) (fun _ _ => True)
        fun _ l => CloseFailed l.log :=
    (LoggedBoard.note_just (X := fun _ => True) c op).imp (fun _ _ _ => trivial)
      fun _ _ h => ⟨c.method, hc, h⟩
  have hclose := Session.close_triple (P := fun _ : Session (LoggedBoard β) => True)
    (fun _ _ _ h => h) (R := fun _ => True) (Q := fun _ => True) (F := fun _ => True)
    (C := fun _ => True) (hcall .stop (by simp [BoardCall.method]) _) (fun _ _ => trivial)
    (fun _ readout _ _ => hcall (.free readout.capacity) (by simp [BoardCall.method]) _)
    (fun _ _ _ _ h => h) (hcall .close (by simp [BoardCall.method]) _)
  have hleft := (Session.alone_triple hclose).error (s := (s, w))
    ⟨⟨hs, trivial⟩, by split <;> trivial⟩ h
  obtain ⟨-, -, hfailed⟩ | ⟨s₁, records, -, hfailed, hs₁⟩ := hleft
  · exact hfailed
  · rw [hs₁]
    exact or_self_iff.1 hfailed

/-! ## Main result -/

/-- What becomes of a session in the operation. The logs are of the calls that the same operation
makes of the board and of the writer. -/
structure Obeys (c : SessionCall) (s : Session β) (w : ω) : Prop where
  /-- The logs change nothing. -/
  logged : c.perform (s, w) = match c.perform (s.logged, LoggedWriter.mk w []) with
    | .ok a left => .ok a (Session.forgetBoth left)
    | .error e left => .error e (Session.forgetBoth left)
  /-- Out of its state, the operation names the state, makes no call and changes nothing. -/
  refused : ∀ op state, c.requires = some (op, state) → s.state ≠ state →
    c.perform (s.logged, LoggedWriter.mk w []) =
      .error (.state op s.state) (s.logged, LoggedWriter.mk w [])
  leads : ∀ a left, c.perform (s, w) = .ok a left → c.Leads s.state left.1.state
  /-- The answer to a start says whether it has started. -/
  started : ∀ patience, c = .start patience → ∀ started left,
    Session.start patience s = .ok started left →
      left.state = if started then .acquiring else .ready
  failed : c ≠ .close → ∀ e left, c.perform (s, w) = .error e left → s.Unchanged left.1
  unannounced : c = .initialise → ∀ e left,
    c.perform (s.logged, LoggedWriter.mk w []) = .error e left →
      left.2 = LoggedWriter.mk w [] ∨
        ∃ b w', e = .writer b ∧ DataWriter.addDigitizer s.id w = .error b w' ∧
          left.2 = LoggedWriter.mk w' [.addDigitizer s.id]
  /-- Nothing is done to close a closed session. -/
  closed : c = .close → s.state = .closed →
    c.perform (s.logged, LoggedWriter.mk w []) = .ok () (s.logged, LoggedWriter.mk w [])
  /-- Closing fails by a call only. -/
  unclosed : c = .close → ∀ e left,
    c.perform (s.logged, LoggedWriter.mk w []) = .error e left → CloseFailed left.1.board.log

/-- Every operation on a session, wherever the session is and whatever the board and the writer
answer, obeys the state machine. -/
theorem obeys (c : SessionCall) (s : Session β) (w : ω) : c.Obeys s w where
  logged := c.perform_forget (s.logged, LoggedWriter.mk w [])
  refused op state hc hs := perform_refused (s := s.logged) hc hs _
  leads a left h := (c.perform_leads s).ok (s := (s, w)) (.refl s) h
  started patience _ started left h := by
    exact ((Session.start_leads s patience).ok (.refl s) h).2
  failed hc e left h := (c.perform_leads s).error (s := (s, w)) (.refl s) h hc
  unannounced := by
    rintro rfl e left h
    obtain hleft | ⟨b, he, hadd⟩ := initialise_fails h
    · exact .inl hleft
    · refine .inr ⟨b, ?_⟩
      simp only [DataWriter.addDigitizer, LoggedWriter.note] at hadd
      cases hrun : WriterCall.perform (.addDigitizer s.logged.id) w with
      | ok _ w' =>
        rw [hrun] at hadd
        cases hadd
      | error b' w' =>
        rw [hrun] at hadd
        obtain ⟨rfl, hleft⟩ := EStateM.Result.error.inj hadd
        exact ⟨w', he, hrun, hleft.symm⟩
  closed := by
    rintro rfl hs
    exact Session.alone_of_ok _ (Session.close_closed (s := s.logged) hs)
  unclosed := by
    rintro rfl e left h
    exact close_fails h

end SessionCall

end Answers

end PulseDaq
