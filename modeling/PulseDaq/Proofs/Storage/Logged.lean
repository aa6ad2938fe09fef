import PulseDaq.Storage.Journal

/-!
# Backends with a log

`Logged γ` is the backend `γ` with a log of its calls and of what they answered. The log is only
kept: a writer over `Logged γ` answers what a writer over `γ` does and leaves the same backend
behind (`Synchronized.perform_forget`, `run_forget`, `dropped_forget`), whatever the backend is.

* `WriterCall`, `WriterCall.run`: a call of a writer, and a writer after some of them.
-/

namespace PulseDaq

/-- The calls of a backend and their answers, the latest first. -/
abbrev BackendLog :=
  List (BackendCall × Except WriterError Unit)

/-- The call itself. -/
def BackendCall.perform {γ : Type} [Backend γ] : BackendCall → EStateM WriterError γ Unit
  | createDigitizer id a => Backend.createDigitizer id a
  | writeUnit u => Backend.writeUnit u
  | close => Backend.close

/-- A backend that logs its calls. -/
structure Logged (γ : Type) where
  backend : γ
  log : BackendLog := []

namespace Logged

variable {γ : Type} [Backend γ]

/-- Make a call and log it. -/
def note (c : BackendCall) : EStateM WriterError (Logged γ) Unit := fun l =>
  match c.perform l.backend with
  | .ok _ backend => .ok () { backend, log := (c, .ok ()) :: l.log }
  | .error e backend => .error e { backend, log := (c, .error e) :: l.log }

instance : Backend (Logged γ) where
  createDigitizer id a := note (.createDigitizer id a)
  writeUnit u := note (.writeUnit u)
  close := note .close

end Logged

/-- A call of a writer. -/
inductive WriterCall where
  | addDigitizer (id : UInt64)
  | writeBuffer (kind : RecordKind) (buffer : RecordBuffer) (id timestamp : UInt64)
  | writeSet (events : EventSet) (id timestamp : UInt64)
  | writeEvents (events : List Event) (id timestamp : UInt64)
  | close

/-- The call itself. -/
def WriterCall.perform {ω : Type} [DataWriter ω] : WriterCall → EStateM WriterError ω Unit
  | addDigitizer id => DataWriter.addDigitizer id
  | writeBuffer kind buffer id timestamp => DataWriter.writeBuffer kind buffer id timestamp
  | writeSet events id timestamp => DataWriter.writeSet events id timestamp
  | writeEvents events id timestamp => DataWriter.writeEvents events id timestamp
  | close => DataWriter.close

/-- The writer after a call, whatever it answers. -/
def WriterCall.after {ω : Type} [DataWriter ω] (w : ω) (c : WriterCall) : ω :=
  match c.perform w with
  | .ok _ w => w
  | .error _ w => w

theorem WriterCall.perform_after {ω : Type} [DataWriter ω] (w : ω) (c : WriterCall) :
    (∃ a, c.perform w = .ok a (c.after w)) ∨ ∃ e, c.perform w = .error e (c.after w) := by
  unfold after
  cases c.perform w with
  | ok a w' => exact .inl ⟨a, rfl⟩
  | error e w' => exact .inr ⟨e, rfl⟩

/-- The writer after some calls. -/
def WriterCall.run {ω : Type} [DataWriter ω] (w : ω) (calls : List WriterCall) : ω :=
  calls.foldl WriterCall.after w

/-! ## Without the log -/

namespace Synchronized

variable {γ : Type}

/-- The writer over the backend alone. -/
def forget (w : Synchronized (Logged γ)) : Synchronized γ :=
  { w with backend := w.backend.backend }

/-- Two actions that answer the same and leave the same writers behind, but for the log. -/
def SameBut (logged : EStateM WriterError (Synchronized (Logged γ)) α)
    (bare : EStateM WriterError (Synchronized γ) α) : Prop :=
  ∀ w, bare w.forget = match logged w with
    | .ok a w' => .ok a w'.forget
    | .error e w' => .error e w'.forget

namespace SameBut

variable {α β : Type} {c : EStateM WriterError (Synchronized (Logged γ)) α}
  {d : EStateM WriterError (Synchronized γ) α}

theorem pure (a : α) : SameBut (γ := γ) (Pure.pure a) (Pure.pure a) :=
  fun _ => rfl

theorem throw (e : WriterError) : SameBut (α := α) (γ := γ) (throw e) (throw e) :=
  fun _ => rfl

theorem bind {f : α → EStateM WriterError (Synchronized (Logged γ)) β}
    {g : α → EStateM WriterError (Synchronized γ) β} (hc : SameBut c d)
    (hf : ∀ a, SameBut (f a) (g a)) : SameBut (c >>= f) (d >>= g) := by
  intro w
  have h := hc w
  cases hrun : c w with
  | ok a w' =>
    rw [hrun] at h
    simp only [Bind.bind, EStateM.bind, h, hrun]
    exact hf a w'
  | error e w' =>
    rw [hrun] at h
    simp only [Bind.bind, EStateM.bind, h, hrun]

theorem bind_get {f : Synchronized (Logged γ) → EStateM WriterError (Synchronized (Logged γ)) β}
    {g : Synchronized γ → EStateM WriterError (Synchronized γ) β}
    (hf : ∀ w, SameBut (f w) (g w.forget)) :
    SameBut (get >>= f) (get >>= g) :=
  fun w => hf w w

/-- A logged call is the call. -/
theorem onBackend [Backend γ] (call : BackendCall) :
    SameBut (γ := γ) (Synchronized.onBackend (Logged.note call))
      (Synchronized.onBackend call.perform) := by
  intro w
  simp only [Synchronized.onBackend, Logged.note, forget]
  cases call.perform w.backend.backend with
  | ok _ backend => rfl
  | error e backend => rfl

end SameBut

variable [Backend γ]

theorem write_forget (u : StoredUnit) : SameBut (γ := γ) (write u) (write u) := by
  unfold write
  split
  · exact .pure _
  refine .bind_get fun w => ?_
  show SameBut (if w.closed then _ else _) (if w.closed then _ else _)
  split
  · exact fun _ => rfl
  refine .bind (.bind_get fun w => ?_) fun _ => .onBackend (.writeUnit u)
  have hknown : w.forget.known = w.known := rfl
  simp only [hknown]
  cases w.known.lookup u.id with
  | some a =>
    simp only
    split
    · exact .throw _
    · exact .pure _
  | none => exact .bind (.onBackend (.createDigitizer u.id _)) fun _ => fun _ => rfl

theorem writeEvents_forget (events : List Event) (id timestamp : UInt64) :
    SameBut (γ := γ) (writeEvents events id timestamp) (writeEvents events id timestamp) := by
  unfold writeEvents
  cases StoredUnit.ofEvents events id timestamp with
  | error e => exact fun _ => rfl
  | ok unit =>
    refine .bind (.pure unit) fun unit => ?_
    cases unit with
    | some u => exact write_forget u
    | none => exact .pure _

theorem close_forget : SameBut (γ := γ) close close := by
  refine .bind_get fun w => ?_
  show SameBut (if w.closed then _ else _) (if w.closed then _ else _)
  split
  · exact .pure _
  · exact .bind (fun _ => rfl) fun _ => .onBackend .close

/-- The log changes no answer. -/
theorem perform_forget (c : WriterCall) :
    SameBut (γ := γ) c.perform c.perform := by
  cases c with
  | addDigitizer id => exact .pure _
  | writeBuffer kind buffer id timestamp => exact write_forget _
  | writeSet events id timestamp => exact writeEvents_forget _ _ _
  | writeEvents events id timestamp => exact writeEvents_forget _ _ _
  | close => exact close_forget

theorem after_forget (c : WriterCall) (w : Synchronized (Logged γ)) :
    (c.after w).forget = c.after w.forget := by
  have h := perform_forget c w
  unfold WriterCall.after
  cases hrun : c.perform w with
  | ok _ w' =>
    rw [hrun] at h
    rw [h]
  | error e w' =>
    rw [hrun] at h
    rw [h]

/-- The log changes no history. -/
theorem run_forget (w : Synchronized (Logged γ)) (calls : List WriterCall) :
    (WriterCall.run w calls).forget = WriterCall.run w.forget calls := by
  induction calls generalizing w with
  | nil => rfl
  | cons c calls ih =>
    show (WriterCall.run (WriterCall.after w c) calls).forget =
      WriterCall.run (WriterCall.after w.forget c) calls
    rw [ih, after_forget]

/-- The log changes nothing in the backend that is left. -/
theorem dropped_forget (w : Synchronized (Logged γ)) : w.forget.dropped = w.dropped.backend := by
  have h := close_forget w
  unfold dropped
  cases hrun : close w with
  | ok _ w' =>
    rw [hrun] at h
    rw [h]
    rfl
  | error _ w' =>
    rw [hrun] at h
    rw [h]
    rfl

end Synchronized

end PulseDaq
