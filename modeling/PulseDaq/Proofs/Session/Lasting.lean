import PulseDaq.Proofs.Session.Effects
import PulseDaq.Proofs.Session.Runs

/-!
# What lasts through operations

An operation that is no cycle changes little of a session besides its board and the time: it decides
the layout, brings the buffers or gives them up, and moves to another state. What is true of a
session and does not mind any of this lasts through all of them, on every board and with every
outcome.

* `Session.Lasting`: what does not mind.
* `SessionCall.perform_lasting`: it lasts through any operation through whose cycles it lasts.
-/

namespace PulseDaq

namespace Session

variable {β ω : Type} {A : ReadoutBuffer → Prop} {P : Session β → Prop}

/-- `P` stays true with whatever the operations write, cycles apart. Of readout buffers that were
just allocated `A` is known. -/
structure Lasting (A : ReadoutBuffer → Prop) (P : Session β → Prop) : Prop where
  blind : Blind P
  initialised : ∀ s layout, s.state = .closed → P s →
    P { s with layout := some layout, state := .initialised }
  supplied : ∀ s layout readout records, P s → s.layout = some layout → A readout →
    recordsFor s.options layout readout.capacity = .ok records →
    P { s with readout := some readout, records := some records, state := .ready }
  running : ∀ s state, state ≠ .closed → P s → P { s with state }
  gaveUp : ∀ s records state, P s → P { s with readout := none, records, state }

namespace Lasting

variable [Board β] (hP : Lasting A P)
include hP

theorem configure (settings : List Setting) : Preserves P (Session.configure settings) := by
  have h := configure_triple hP.blind (R := fun _ => True) (fun _ _ _ => .anything _) settings
  exact h.conseq (fun _ hs => ⟨hs, trivial⟩) (fun _ _ h => h.1.2) fun _ _ h => h.1

theorem initialise [DataWriter ω] :
    Preserves (fun s : Session β × ω => P s.1) Session.initialise := by
  intro s hs
  have h := initialise_triple hP.blind (R := fun _ => True) (V := fun _ _ _ => True)
    (fun _ _ => (Preserves.anything _).imp (fun _ _ _ => ⟨trivial, trivial⟩) fun _ _ h => h) s.2
  refine h.imp ?_ (fun _ _ h => h.1.1) s ⟨⟨hs, trivial⟩, rfl⟩
  rintro _ ⟨_, w⟩ ⟨s₁, layout, ⟨hclosed, hs₁⟩, -, -, rfl, -⟩
  exact hP.initialised s₁ layout hclosed hs₁

theorem prepare (hA : Triple (fun _ : β => True) Board.allocate (fun buffer _ => A buffer)
    fun _ _ => True) : Preserves P Session.prepare := by
  have h := prepare_triple hP.blind (R := fun _ => True) (Q := fun _ => True)
    (hA.imp (fun _ _ h => ⟨h, trivial⟩) fun _ _ h => h) fun _ => Preserves.anything _
  refine h.conseq (fun _ hs => ⟨hs, trivial⟩) ?_ fun _ _ h => h.1
  rintro _ _ ⟨s₁, layout, readout, records, ⟨-, hs₁⟩, -, hlayout, hreadout, hrecords, rfl⟩
  exact hP.supplied s₁ layout readout records hs₁ hlayout hreadout hrecords

omit [Board β] in
/-- It does not matter whether the board was ready. -/
theorem asked {started : Bool} {s : Session β}
    (h : Asked P (fun _ => True) (fun _ => True) started s) : P s := by
  cases started with
  | true =>
    obtain ⟨s₁, ⟨-, hs₁⟩, -, rfl⟩ := h
    exact hP.running s₁ _ nofun hs₁
  | false => exact h.1.2

theorem poll : Preserves P Session.poll := by
  have h := poll_triple hP.blind (R := fun _ => True) (Q := fun _ => True)
    (fun _ _ => .anything _) (Preserves.anything _)
  exact h.conseq (fun _ hs => ⟨hs, trivial⟩) (fun _ _ => hP.asked) fun _ _ h => h.1

theorem start (patience : Nat) : Preserves P (Session.start patience) := by
  have h := start_triple hP.blind (R := fun _ => True) (Q := fun _ => True)
    (fun _ _ => .anything _) (Preserves.anything _) patience
  exact h.conseq (fun _ hs => ⟨hs, trivial⟩) (fun _ _ => hP.asked) fun _ _ h => h.1

theorem stop : Preserves P Session.stop := by
  have h := stop_triple hP.blind (R := fun _ => True) (Q := fun _ => True) (S := fun _ => True)
    (Preserves.anything _) fun _ h => h
  refine h.conseq (fun _ hs => ⟨hs, trivial⟩) ?_ fun _ _ h => h.1
  rintro _ _ ⟨s₁, ⟨-, hs₁⟩, -, rfl⟩
  exact hP.running s₁ _ nofun hs₁

theorem close : Preserves P Session.close := by
  intro s hs
  by_cases hclosed : s.state = .closed
  · rw [close_closed hclosed]
    exact hs
  have h := close_triple hP.blind (R := fun _ => True) (Q := fun _ => True) (F := fun _ => True)
    (C := fun _ => True) (S := fun _ => True) (G := fun _ => True) (D := fun _ => True)
    (Preserves.anything _) (fun _ h => h) (fun _ _ _ _ => Preserves.anything _)
    (fun _ _ _ _ h => h) (Preserves.anything _)
  refine h.imp ?_ ?_ s ⟨⟨hclosed, hs⟩, by split <;> trivial⟩
  · rintro _ _ ⟨s₁, hs₁, -, rfl⟩
    exact hP.gaveUp s₁ _ _ hs₁
  · rintro _ s (⟨-, hs, -⟩ | ⟨s₁, records, hs₁, -, rfl⟩)
    · exact hs
    · exact hP.gaveUp s₁ _ _ hs₁

end Lasting

end Session

/-- Every operation, whatever its outcome, keeps what lasts. -/
theorem SessionCall.perform_lasting {β ω : Type} [Board β] [DataWriter ω]
    {A : ReadoutBuffer → Prop} {P : Session β → Prop} (hP : Session.Lasting A P)
    (hA : Triple (fun _ : β => True) Board.allocate (fun buffer _ => A buffer) fun _ _ => True)
    (c : SessionCall) (hcycle : ∀ timestamp, c = .acquire timestamp →
      Preserves (fun s : Session β × ω => P s.1) (Session.acquire timestamp)) :
    Preserves (fun s : Session β × ω => P s.1) c.perform := by
  cases c with
  | configure settings => exact Session.alone_triple (hP.configure settings)
  | initialise => exact hP.initialise
  | prepare => exact Session.alone_triple (hP.prepare hA)
  | start patience => exact .bind (Session.alone_triple (hP.start patience)) fun _ => .pure _
  | acquire timestamp => exact .bind (hcycle timestamp rfl) fun _ => .pure _
  | stop => exact Session.alone_triple hP.stop
  | close => exact Session.alone_triple hP.close

end PulseDaq
