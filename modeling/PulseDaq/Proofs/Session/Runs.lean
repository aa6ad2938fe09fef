import PulseDaq.Board.Scripted
import PulseDaq.Proofs.Session.Operations

/-!
# What a session holds in a run

Operations in any order, each answering or failing as the board and the writer have it.

A session that is ready or acquiring has its layout. It has its buffers too, unless it was closed by
half: `close` gives up the readout buffer before the board has agreed to free it and to close, so
if the board then fails, the session is left in the state it had and can be started again.

* `SessionCall`, `SessionRun`: an operation, and a session after some of them.
* `SessionParts.Sound`: the invariant, kept by every operation (`SessionRun.sound_step`).
* `SessionRun.holds_buffers_iff`: a run lacks its buffers exactly if it was closed by half.
-/

namespace PulseDaq

/-- An operation on a session. -/
inductive SessionCall where
  | configure (settings : List Setting)
  | initialise
  | prepare
  /-- Gives up waiting after so many vain questions. -/
  | start (patience : Nat)
  | acquire (timestamp : UInt64)
  | stop
  | close

/-- What an operation answers. -/
inductive SessionAnswer where
  | done
  /-- Whether the board was started. -/
  | started (ready : Bool)
  | cycle (c : Cycle)
  deriving DecidableEq, Repr

/-- A session after some operations, beside its writer. -/
structure SessionRun (β ω : Type) where
  session : Session β
  writer : ω
  /-- A close has failed with the acquisition stopped, and nothing has been prepared since. -/
  halfClosed : Bool := false

namespace SessionCall

variable {β ω : Type} [Board β] [DataWriter ω]

/-- The operation, whatever it answers. -/
def perform : SessionCall → EStateM SessionError (Session β × ω) Unit
  | configure settings => Session.alone (Session.configure settings)
  | initialise => Session.initialise
  | prepare => Session.alone Session.prepare
  | start patience => do let _ ← Session.alone (Session.start patience)
  | acquire timestamp => do let _ ← Session.acquire timestamp
  | stop => Session.alone Session.stop
  | close => Session.alone Session.close

/-- The operation with its answer. -/
def ask : SessionCall → EStateM SessionError (Session β × ω) SessionAnswer
  | configure settings => do
    Session.alone (Session.configure settings)
    return .done
  | initialise => do
    Session.initialise
    return .done
  | prepare => do
    Session.alone Session.prepare
    return .done
  | start patience => return .started (← Session.alone (Session.start patience))
  | acquire timestamp => return .cycle (← Session.acquire timestamp)
  | stop => do
    Session.alone Session.stop
    return .done
  | close => do
    Session.alone Session.close
    return .done

theorem perform_eq_ask (c : SessionCall) :
    (c.perform : EStateM SessionError (Session β × ω) Unit) = (do let _ ← c.ask; return) := by
  cases c <;> simp only [perform, ask, bind_assoc, pure_bind, bind_pure_unit]

/-- Whether the session is closed by half after the operation has answered. -/
def answered (halfClosed : Bool) : SessionCall → Bool
  | prepare => false
  | _ => halfClosed

/-- Whether the session is closed by half after the operation has failed in a state. -/
def failed (halfClosed : Bool) (state : SessionState) : SessionCall → Bool
  | close => halfClosed || state = .ready
  | _ => halfClosed

end SessionCall

namespace SessionRun

variable {β ω : Type} [Board β] [DataWriter ω]

/-- Nothing has been done with the board. -/
def ofBoard (board : β) (options : SessionOptions) (writer : ω) : SessionRun β ω where
  session := .ofBoard board options
  writer := writer

def step (r : SessionRun β ω) (c : SessionCall) : SessionRun β ω :=
  match c.perform (r.session, r.writer) with
  | .ok _ (session, writer) => { session, writer, halfClosed := c.answered r.halfClosed }
  | .error _ (session, writer) =>
    { session, writer, halfClosed := c.failed r.halfClosed session.state }

def run (r : SessionRun β ω) (calls : List SessionCall) : SessionRun β ω :=
  calls.foldl step r

end SessionRun

/-! ## The invariant -/

@[simp] theorem SessionParts.stopped_layout (p : SessionParts) : p.stopped.layout = p.layout := by
  unfold stopped
  split <;> rfl

theorem SessionParts.stopped_state_ne (p : SessionParts) : p.stopped.state ≠ .acquiring := by
  unfold stopped
  split
  · nofun
  next h => exact h

/-- What the parts of a session say about it. -/
structure SessionParts.Sound (p : SessionParts) (halfClosed : Bool) : Prop where
  layout : p.state ≠ .closed → p.layout = true
  buffers : p.state = .ready ∨ p.state = .acquiring → halfClosed = false →
    p.readout = true ∧ p.records = true
  lost : halfClosed = true → p.readout = false

namespace SessionCall

variable {β ω : Type} [Board β] [DataWriter ω] {p : SessionParts} {halfClosed : Bool}

/-- One operation keeps the invariant, whatever its outcome. -/
theorem perform_sound (h : p.Sound halfClosed) (c : SessionCall) :
    Triple (fun s : Session β × ω => s.1.parts = p) c.perform
      (fun _ s => s.1.parts.Sound (c.answered halfClosed))
      fun _ s => s.1.parts.Sound (c.failed halfClosed s.1.state) := by
  cases c with
  | configure settings =>
    refine (Session.alone_triple (Session.configure_parts settings)).imp ?_ ?_
    all_goals
      rintro _ s hs
      exact hs ▸ h
  | initialise =>
    refine Session.initialise_parts.imp ?_ ?_
    · rintro _ s ⟨-, hs⟩
      rw [hs]
      exact ⟨fun _ => rfl, nofun, h.lost⟩
    · rintro _ s hs
      exact hs ▸ h
  | prepare =>
    refine (Session.alone_triple Session.prepare_parts).imp ?_ ?_
    · rintro _ s ⟨-, hlayout, hs⟩
      rw [hs]
      exact ⟨fun _ => hlayout, fun _ _ => ⟨rfl, rfl⟩, nofun⟩
    · rintro _ s hs
      exact hs ▸ h
  | start patience =>
    have hstart := Session.alone_triple (ω := ω) (Session.start_parts (β := β) (p := p) patience)
    refine .bind (hstart.imp_error ?_) fun started => .pure _ ?_
    · rintro _ s hs
      exact hs ▸ h
    · rintro s ⟨hready, hs⟩
      rw [hs]
      have hlayout := h.layout (by simp [hready])
      cases started with
      | false => exact h
      | true => exact ⟨fun _ => hlayout, fun _ => h.buffers (.inl hready), h.lost⟩
  | acquire timestamp =>
    by_cases hp : p = .cycling
    · subst hp
      refine .bind ((Session.acquire_parts timestamp).imp_error ?_) fun _ => .pure _ ?_
      · rintro _ s ⟨-, hs⟩
        exact hs ▸ h
      · rintro s hs
        exact hs ▸ h
    · refine .bind ((Session.acquire_refused hp timestamp).imp_error ?_) fun _ _ h => h.elim
      rintro _ s ⟨-, hs⟩
      exact hs ▸ h
  | stop =>
    refine (Session.alone_triple Session.stop_parts).imp ?_ ?_
    · rintro _ s ⟨hacq, hs⟩
      rw [hs]
      exact ⟨fun _ => h.layout (by simp [hacq]), fun _ => h.buffers (.inr hacq), h.lost⟩
    · rintro _ s hs
      exact hs ▸ h
  | close =>
    refine (Session.alone_triple Session.close_parts).imp ?_ ?_
    · rintro _ s hs
      rw [hs]
      split
      · exact h
      · exact ⟨fun hne => absurd rfl hne, nofun, fun _ => rfl⟩
    · rintro _ s (⟨hacq, hs⟩ | ⟨hopen, records, hs⟩)
      · have hstate : s.1.state = .acquiring := (congrArg SessionParts.state hs).trans hacq
        rw [failed, hstate, hs]
        simpa using h
      -- The board has failed behind the last stop, so the session is not acquiring.
      · have hstate : s.1.state = p.stopped.state := congrArg SessionParts.state hs
        rw [failed, hstate, hs]
        refine ⟨fun _ => p.stopped_layout.trans (h.layout hopen), ?_, fun _ => rfl⟩
        rintro (hready | hacq) hflag
        · replace hready : p.stopped.state = .ready := hready
          simp [hready] at hflag
        · exact absurd hacq p.stopped_state_ne

end SessionCall

theorem SessionRun.sound_step {β ω : Type} [Board β] [DataWriter ω] (r : SessionRun β ω)
    (h : r.session.parts.Sound r.halfClosed) (c : SessionCall) :
    (r.step c).session.parts.Sound (r.step c).halfClosed := by
  have ht := c.perform_sound (β := β) (ω := ω) h
  unfold step
  split
  next hrun => exact ht.ok (s := (r.session, r.writer)) rfl hrun
  next hrun => exact ht.error (s := (r.session, r.writer)) rfl hrun

/-- A run keeps the invariant. -/
theorem SessionRun.sound_run {β ω : Type} [Board β] [DataWriter ω] (r : SessionRun β ω)
    (h : r.session.parts.Sound r.halfClosed) (calls : List SessionCall) :
    (r.run calls).session.parts.Sound (r.run calls).halfClosed := by
  induction calls generalizing r with
  | nil => exact h
  | cons c calls ih => exact ih (r.step c) (sound_step r h c)

/-! ## Main results -/

section Main

variable {β ω : Type} [Board β] [DataWriter ω]

/-- After any operations on a fresh session, with whatever outcomes: a session that is ready or
acquiring has its layout. It has both buffers exactly if it was not closed by half, and exactly then
a cycle of a running acquisition is not refused. -/
theorem SessionRun.holds_buffers_iff (board : β) (options : SessionOptions) (writer : ω)
    (calls : List SessionCall) (r : SessionRun β ω)
    (hr : r = (SessionRun.ofBoard board options writer).run calls)
    (hstate : r.session.state = .ready ∨ r.session.state = .acquiring) :
    r.session.layout.isSome ∧
      ((r.session.readout.isSome ∧ r.session.records.isSome) ↔ r.halfClosed = false) ∧
      (r.session.state = .acquiring → ∀ timestamp,
        (∃ op found s, Session.acquire timestamp (r.session, r.writer) =
          .error (.state op found) s) ↔ r.halfClosed = true) := by
  have hsound : r.session.parts.Sound r.halfClosed := by
    rw [hr]
    refine sound_run _ ?_ calls
    show SessionParts.Sound ⟨.closed, false, false, false⟩ false
    exact ⟨fun hne => absurd rfl hne, nofun, nofun⟩
  have hlayout : r.session.layout.isSome := hsound.layout <| by
    rcases hstate with h | h
    all_goals
      rw [show r.session.parts.state = _ from h]
      nofun
  have hbuffers : (r.session.readout.isSome ∧ r.session.records.isSome) ↔
      r.halfClosed = false := by
    refine ⟨fun h => ?_, hsound.buffers hstate⟩
    rw [← Bool.not_eq_true]
    intro hhalf
    rw [show r.session.readout.isSome = false from hsound.lost hhalf] at h
    cases h.1
  refine ⟨hlayout, hbuffers, fun hacq timestamp => ⟨?_, fun hhalf => ?_⟩⟩
  · rintro ⟨op, found, s, hrun⟩
    rw [← Bool.not_eq_false, ← hbuffers]
    intro hboth
    have hparts : r.session.parts = .cycling := by
      rw [Session.parts, hacq, hlayout, hboth.1, hboth.2, SessionParts.cycling]
    obtain ⟨⟨b, hb⟩, -⟩ := (Session.acquire_parts timestamp).error
      (s := (r.session, r.writer)) hparts hrun
    cases hb
  · have hparts : r.session.parts ≠ .cycling := by
      intro h
      have hreadout := congrArg SessionParts.readout h
      rw [hsound.lost hhalf] at hreadout
      cases hreadout
    have hrefused := Session.acquire_refused (β := β) (ω := ω) hparts timestamp
    cases hrun : Session.acquire timestamp (r.session, r.writer) with
    | ok c s => exact (hrefused.ok (s := (r.session, r.writer)) rfl hrun).elim
    | error e s =>
      obtain ⟨rfl, -⟩ := hrefused.error (s := (r.session, r.writer)) rfl hrun
      exact ⟨_, _, _, rfl⟩

end Main

/-- A board with one group that fails once to free its readout buffer. -/
def boardFailingToFree : ScriptedBoard where
  registers := [((.groupEnableMask, none), 1)]
  failures
    | .free => [some (.board (-1) "dead")]
    | _ => []

/-- A session that could not be closed, and is started again. -/
def startedHalfClosed : SessionRun ScriptedBoard Totals :=
  (SessionRun.ofBoard boardFailingToFree {} {}).run [.initialise, .prepare, .close, .start 0]

/-- It is acquiring, lacks a buffer, and its cycles are refused. -/
theorem startedHalfClosed_lacks_buffers :
    startedHalfClosed.session.state = .acquiring ∧ startedHalfClosed.halfClosed = true ∧
      ¬(startedHalfClosed.session.readout.isSome ∧ startedHalfClosed.session.records.isSome) ∧
      ∃ op found s, Session.acquire 1 (startedHalfClosed.session, startedHalfClosed.writer) =
        .error (.state op found) s := by
  have hstate : startedHalfClosed.session.state = .acquiring := by decide +kernel
  have hhalf : startedHalfClosed.halfClosed = true := by decide +kernel
  obtain ⟨-, hbuffers, hrefused⟩ := SessionRun.holds_buffers_iff boardFailingToFree {}
    ({} : Totals) [.initialise, .prepare, .close, .start 0] startedHalfClosed rfl
    (.inr hstate)
  refine ⟨hstate, hhalf, fun h => ?_, (hrefused hstate 1).2 hhalf⟩
  rw [hbuffers, hhalf] at h
  cases h

end PulseDaq
