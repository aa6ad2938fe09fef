import PulseDaq.Board.Retry
import PulseDaq.Proofs.Triple

/-!
# Simulations

`Simulates R c d`: from states that `R` relates, the actions `c` and `d` answer the same or fail
with the same error, and leave states behind that `R` relates.

`Simulates R c d X` excuses some failures of `c`: those with an error `e` and a state `s` for which
`X e s`. Then nothing is said about `d`, and what follows `c` does not happen.

* `Simulates.cases`, `Simulates.cases_excused`: what a simulation says about one run of both.
* `Simulates.bind`, `Simulates.ite`, ...: one rule for each way to compose actions.
* `Simulates.attempt`: calls that are tried again.
-/

namespace PulseDaq

variable {ε ε' σ τ α β γ : Type}

/-- The same answer, or the same error, in related states; or else an excused error. -/
inductive SameOutcome (R : σ → τ → Prop) (X : ε → σ → Prop) :
    EStateM.Result ε σ α → EStateM.Result ε τ α → Prop
  | ok (a : α) {s : σ} {t : τ} (h : R s t) : SameOutcome R X (.ok a s) (.ok a t)
  | error (e : ε) {s : σ} {t : τ} (h : R s t) : SameOutcome R X (.error e s) (.error e t)
  | excused (e : ε) {s : σ} (h : X e s) (y : EStateM.Result ε τ α) : SameOutcome R X (.error e s) y

/-- `Simulates R c d X` (module doc). Without `X` no failure is excused. -/
def Simulates (R : σ → τ → Prop) (c : EStateM ε σ α) (d : EStateM ε τ α)
    (X : ε → σ → Prop := fun _ _ => False) : Prop :=
  ∀ s t, R s t → SameOutcome R X (c s) (d t)

namespace Simulates

variable {R : σ → τ → Prop} {c : EStateM ε σ α} {d : EStateM ε τ α} {X : ε → σ → Prop}

/-- Both runs answer the same, or both fail, or the failure of the first is excused. -/
theorem cases_excused (h : Simulates R c d X) {s : σ} {t : τ} (hR : R s t) :
    (∃ a s' t', c s = .ok a s' ∧ d t = .ok a t' ∧ R s' t') ∨
      (∃ e s' t', c s = .error e s' ∧ d t = .error e t' ∧ R s' t') ∨
      ∃ e s', c s = .error e s' ∧ X e s' := by
  have hout := h s t hR
  generalize c s = x at hout ⊢
  generalize d t = y at hout ⊢
  cases hout with
  | ok a h => exact .inl ⟨a, _, _, rfl, rfl, h⟩
  | error e h => exact .inr (.inl ⟨e, _, _, rfl, rfl, h⟩)
  | excused e h => exact .inr (.inr ⟨e, _, rfl, h⟩)

/-- Both runs answer the same, or both fail. -/
theorem cases (h : Simulates R c d) {s : σ} {t : τ} (hR : R s t) :
    (∃ a s' t', c s = .ok a s' ∧ d t = .ok a t' ∧ R s' t') ∨
      ∃ e s' t', c s = .error e s' ∧ d t = .error e t' ∧ R s' t' := by
  obtain hok | herror | ⟨e, s', -, hX⟩ := h.cases_excused hR
  · exact .inl hok
  · exact .inr herror
  · exact hX.elim

/-- An action simulates itself. -/
theorem refl (c : EStateM ε σ α) : Simulates Eq c c X := by
  rintro s _ rfl
  cases c s with
  | ok a s' => exact .ok a rfl
  | error e s' => exact .error e rfl

theorem pure (a : α) : Simulates R (Pure.pure a) (Pure.pure a) X :=
  fun _ _ h => .ok a h

theorem throw (e : ε) : Simulates (α := α) R (throw e) (throw e) X :=
  fun _ _ h => .error e h

theorem ofExcept {ε : Type} {X : ε → σ → Prop} (x : Except ε α) :
    Simulates R (MonadExcept.ofExcept x) (MonadExcept.ofExcept x) X := by
  cases x with
  | ok a => exact .pure a
  | error e => exact .throw e

theorem modify {g : σ → σ} {g' : τ → τ} (h : ∀ s t, R s t → R (g s) (g' t)) :
    Simulates (α := PUnit) R (modify g) (modify g') X :=
  fun s t hR => SameOutcome.ok PUnit.unit (h s t hR)

theorem bind {f : α → EStateM ε σ β} {g : α → EStateM ε τ β} (hc : Simulates R c d X)
    (hf : ∀ a, Simulates R (f a) (g a) X) : Simulates R (c >>= f) (d >>= g) X := by
  intro s t h
  simp only [Bind.bind, EStateM.bind]
  obtain ⟨a, s', t', hs, ht, h'⟩ | ⟨e, s', t', hs, ht, h'⟩ | ⟨e, s', hs, hX⟩ := hc.cases_excused h
  · simp only [hs, ht]
    exact hf a s' t' h'
  · simp only [hs, ht]
    exact .error e h'
  · simp only [hs]
    exact .excused e hX _

/-- What `get` answers are related states. -/
theorem bind_get {f : σ → EStateM ε σ β} {g : τ → EStateM ε τ β}
    (hf : ∀ s t, R s t → Simulates R (f s) (g t) X) : Simulates R (get >>= f) (get >>= g) X :=
  fun s t h => hf s t h s t h

theorem ite {p : Prop} [Decidable p] {c' : EStateM ε σ α} {d' : EStateM ε τ α}
    (hc : Simulates R c d X) (hc' : Simulates R c' d' X) :
    Simulates R (if p then c else c') (if p then d else d') X := by
  split
  · exact hc
  · exact hc'

/-- Fail early alike, or go on. -/
theorem guard {p : Prop} [Decidable p] {e : ε} {f : β → EStateM ε σ α} {g : β → EStateM ε τ α}
    (h : Simulates R c d X) :
    Simulates R (if p then MonadExcept.throw e >>= f else c)
      (if p then MonadExcept.throw e >>= g else d) X :=
  ite (fun _ _ hR => .error e hR) h

theorem adaptExcept {g : ε → ε'} {X : ε' → σ → Prop} (h : Simulates R c d fun e => X (g e)) :
    Simulates R (c.adaptExcept g) (d.adaptExcept g) X := by
  intro s t hR
  simp only [EStateM.adaptExcept]
  obtain ⟨a, s', t', hs, ht, h'⟩ | ⟨e, s', t', hs, ht, h'⟩ | ⟨e, s', hs, hX⟩ := h.cases_excused hR
  · simp only [hs, ht]
    exact .ok a h'
  · simp only [hs, ht]
    exact .error (g e) h'
  · simp only [hs]
    exact .excused (g e) hX _

theorem forM {f : γ → EStateM ε σ PUnit} {g : γ → EStateM ε τ PUnit}
    (h : ∀ x, Simulates R (f x) (g x) X) (l : List γ) : Simulates R (l.forM f) (l.forM g) X := by
  induction l with
  | nil => exact .pure _
  | cons x l ih => exact .bind (h x) fun _ => ih

theorem mapM {f : γ → EStateM ε σ β} {g : γ → EStateM ε τ β}
    (h : ∀ x, Simulates R (f x) (g x) X) (l : List γ) : Simulates R (l.mapM f) (l.mapM g) X := by
  induction l with
  | nil =>
    rw [List.mapM_nil, List.mapM_nil]
    exact .pure _
  | cons x l ih =>
    rw [List.mapM_cons, List.mapM_cons]
    exact .bind (h x) fun _ => .bind ih fun _ => .pure _

/-- Retries of calls that simulate each other do, if sleeping in between does. -/
theorem attempt {c : EStateM BoardError σ α} {d : EStateM BoardError τ α}
    {sleep : Duration → EStateM BoardError σ Unit} {sleep' : Duration → EStateM BoardError τ Unit}
    (p : RetryPolicy) (hsleep : ∀ d, Simulates R (sleep d) (sleep' d)) (h : Simulates R c d) :
    Simulates R (p.attempt sleep c) (p.attempt sleep' d) := by
  unfold RetryPolicy.attempt
  -- Every retry has a delay of its own.
  generalize p.initialDelay = delay
  induction p.retries.toNat generalizing delay with
  | zero =>
    intro s t hR
    unfold RetryPolicy.attemptFrom
    obtain ⟨a, s', t', hs, ht, h'⟩ | ⟨e, s', t', hs, ht, h'⟩ := h.cases hR
    · simp only [hs, ht]
      exact .ok a h'
    · simp only [hs, ht]
      exact .error _ h'
  | succ left ih =>
    intro s t hR
    unfold RetryPolicy.attemptFrom
    obtain ⟨a, s', t', hs, ht, h'⟩ | ⟨e, s', t', hs, ht, h'⟩ := h.cases hR
    · simp only [hs, ht]
      exact .ok a h'
    · simp only [hs, ht]
      by_cases htransient : e.isTransient
      · simp only [htransient, if_true]
        exact Simulates.bind (hsleep delay) (fun _ => ih _) s' t' h'
      · simp only [htransient, Bool.false_eq_true, if_false]
        exact .error e h'

end Simulates

end PulseDaq
