import Mathlib.Data.List.Forall2

/-!
# Triples

`Triple P c Q E`: from every state with `P`, the action `c` ends in a state with `Q a` if it answers
`a`, and in a state with `E e` if it fails with `e`. Failing is an outcome like any other, since a
failed call of a board or of a backend may leave anything behind.

* `Triple.ok`, `Triple.error`: what a triple says about one run.
* `Triple.bind`, `Triple.ite`, ...: one rule for each way to compose actions.
* `Preserves P c`: both outcomes leave `P` true. Loops of such actions do, too.
-/

namespace PulseDaq

variable {ε ε' σ α β γ : Type}

/-- `Triple P c Q E` (module doc). -/
def Triple (P : σ → Prop) (c : EStateM ε σ α) (Q : α → σ → Prop) (E : ε → σ → Prop) : Prop :=
  ∀ s, P s → match c s with
    | .ok a s' => Q a s'
    | .error e s' => E e s'

/-! ## Single runs -/

theorem bind_of_ok {c : EStateM ε σ α} {f : α → EStateM ε σ β} {s s' : σ} {a : α}
    (h : c s = .ok a s') : (c >>= f) s = f a s' := by
  simp only [Bind.bind, EStateM.bind, h]

theorem bind_of_error {c : EStateM ε σ α} {f : α → EStateM ε σ β} {s s' : σ} {e : ε}
    (h : c s = .error e s') : (c >>= f) s = .error e s' := by
  simp only [Bind.bind, EStateM.bind, h]

/-- With its answer an action leaves a state behind. -/
theorem exists_of_run' {c : EStateM ε σ α} {s : σ} {a : α} (h : c.run' s = some a) :
    ∃ s', c s = .ok a s' := by
  have hanswer : (match c s with
      | .ok a _ => some a
      | .error _ _ => none) = some a := h
  split at hanswer
  next s' hrun =>
    cases hanswer
    exact ⟨s', hrun⟩
  · cases hanswer

/-! ## Rules -/

/-- Whatever the outcome, `P` stays true. -/
def Preserves (P : σ → Prop) (c : EStateM ε σ α) : Prop :=
  Triple P c (fun _ => P) fun _ => P

namespace Triple

variable {P P' : σ → Prop} {Q Q' : α → σ → Prop} {E E' : ε → σ → Prop} {c : EStateM ε σ α}

/-- A triple from the runs. -/
theorem of_run (hok : ∀ s a s', P s → c s = .ok a s' → Q a s')
    (herror : ∀ s e s', P s → c s = .error e s' → E e s') : Triple P c Q E := by
  intro s hp
  split
  next h => exact hok _ _ _ hp h
  next h => exact herror _ _ _ hp h

theorem ok (ht : Triple P c Q E) {s s' : σ} {a : α} (hp : P s) (h : c s = .ok a s') :
    Q a s' := by
  have := ht s hp
  rwa [h] at this

theorem error (ht : Triple P c Q E) {s s' : σ} {e : ε} (hp : P s) (h : c s = .error e s') :
    E e s' := by
  have := ht s hp
  rwa [h] at this

theorem conseq (ht : Triple P c Q E) (hp : ∀ s, P' s → P s) (hq : ∀ a s, Q a s → Q' a s)
    (he : ∀ e s, E e s → E' e s) : Triple P' c Q' E' :=
  of_run (fun _ _ _ hp' h => hq _ _ (ht.ok (hp _ hp') h))
    fun _ _ _ hp' h => he _ _ (ht.error (hp _ hp') h)

theorem pre (ht : Triple P c Q E) (hp : ∀ s, P' s → P s) : Triple P' c Q E :=
  ht.conseq hp (fun _ _ h => h) fun _ _ h => h

theorem imp (ht : Triple P c Q E) (hq : ∀ a s, Q a s → Q' a s) (he : ∀ e s, E e s → E' e s) :
    Triple P c Q' E' :=
  ht.conseq (fun _ h => h) hq he

theorem imp_error (ht : Triple P c Q E) (he : ∀ e s, E e s → E' e s) : Triple P c Q E' :=
  ht.imp (fun _ _ h => h) he

/-- What holds of no state in particular is known beforehand. -/
theorem lift {φ : Prop} (h : φ → Triple P c Q E) : Triple (fun s => φ ∧ P s) c Q E :=
  fun s hp => h hp.1 s hp.2

theorem pure (a : α) (h : ∀ s, P s → Q a s) : Triple P (pure a : EStateM ε σ α) Q E :=
  h

theorem throw (e : ε) (h : ∀ s, P s → E e s) : Triple P (throw e : EStateM ε σ α) Q E :=
  h

theorem ofExcept {ε : Type} {E : ε → σ → Prop} (x : Except ε α)
    (h : ∀ e s, x = .error e → P s → E e s) :
    Triple P (MonadExcept.ofExcept x : EStateM ε σ α) (fun a s => x = .ok a ∧ P s) E := by
  cases x with
  | ok a => exact .pure a fun _ hs => ⟨rfl, hs⟩
  | error e => exact .throw e fun s => h e s rfl

theorem modify {g : σ → σ} {Q : PUnit → σ → Prop} (h : ∀ s, P s → Q ⟨⟩ (g s)) :
    Triple P (modify g : EStateM ε σ PUnit) Q E :=
  h

theorem bind {R : β → σ → Prop} {f : α → EStateM ε σ β} (hc : Triple P c Q E)
    (hf : ∀ a, Triple (Q a) (f a) R E) : Triple P (c >>= f) R E := by
  intro s hp
  have h₁ := hc s hp
  show match (match c s with
      | .ok a s' => f a s'
      | .error e s' => .error e s' : EStateM.Result ε σ β) with
    | .ok b s' => R b s'
    | .error e s' => E e s'
  cases hrun : c s with
  | ok a s' =>
    rw [hrun] at h₁
    exact hf a s' h₁
  | error e s' =>
    rw [hrun] at h₁
    exact h₁

/-- What `get` answers is the state. -/
theorem bind_get {R : β → σ → Prop} {f : σ → EStateM ε σ β}
    (hf : ∀ s₀, P s₀ → Triple (· = s₀) (f s₀) R E) :
    Triple P ((MonadState.get : EStateM ε σ σ) >>= f) R E :=
  fun s hp => hf s hp s rfl

theorem bind_modify {g : σ → σ} {f : PUnit → EStateM ε σ α} (hf : Triple P' (f ⟨⟩) Q E)
    (h : ∀ s, P s → P' (g s)) : Triple P (MonadStateOf.modifyGet (fun s => (⟨⟩, g s)) >>= f) Q E :=
  fun s hp => hf (g s) (h s hp)

theorem ite {p : Prop} [Decidable p] {d : EStateM ε σ α} (hc : p → Triple P c Q E)
    (hd : ¬p → Triple P d Q E) : Triple P (if p then c else d) Q E := by
  split
  next h => exact hc h
  next h => exact hd h

/-- Fail early, or go on. -/
theorem guard {p : Prop} [Decidable p] {e : ε} {f : β → EStateM ε σ α}
    (he : p → ∀ s, P s → E e s) (hc : ¬p → Triple P c Q E) :
    Triple P (if p then MonadExcept.throw e >>= f else c) Q E :=
  ite he hc

theorem adaptExcept {g : ε → ε'} {E : ε' → σ → Prop}
    (h : Triple P c Q fun e => E (g e)) : Triple P (c.adaptExcept g) Q E := by
  intro s hp
  have h₁ := h s hp
  unfold EStateM.adaptExcept
  cases hrun : c s with
  | ok a s' => rwa [hrun] at h₁
  | error e s' => rwa [hrun] at h₁

/-- A loop answers one thing for each element, in their order, which is related to it as a single
answer is. -/
theorem mapM_forall₂ {f : γ → EStateM ε σ β} {r : γ → β → Prop}
    (h : ∀ x, Triple P (f x) (fun b s => r x b ∧ P s) E) (l : List γ) :
    Triple P (l.mapM f) (fun bs s => List.Forall₂ r l bs ∧ P s) E := by
  induction l with
  | nil =>
    rw [List.mapM_nil]
    exact .pure _ fun _ hs => ⟨.nil, hs⟩
  | cons x l ih =>
    rw [List.mapM_cons]
    refine .bind (h x) fun b => .lift fun hb => .bind ih fun bs => .lift fun hbs => .pure _ ?_
    exact fun _ hs => ⟨.cons hb hbs, hs⟩

/-- What a loop answers, if each of its answers tells what it was for. -/
theorem mapM {f : γ → EStateM ε σ β} {g : β → γ}
    (h : ∀ x, Triple P (f x) (fun b s => g b = x ∧ P s) E) (l : List γ) :
    Triple P (l.mapM f) (fun bs s => bs.map g = l ∧ P s) E := by
  refine (mapM_forall₂ h l).imp (fun bs s ⟨hbs, hs⟩ => ⟨?_, hs⟩) fun _ _ h => h
  rw [← List.forall₂_eq_eq_eq, List.forall₂_map_left_iff]
  exact hbs.flip

/-- What a loop answers, if each of its answers is known beforehand. -/
theorem mapM_exact {f : γ → EStateM ε σ β} {g : γ → β}
    (h : ∀ x, Triple P (f x) (fun b s => b = g x ∧ P s) E) (l : List γ) :
    Triple P (l.mapM f) (fun bs s => bs = l.map g ∧ P s) E := by
  refine (mapM_forall₂ h l).imp (fun bs s ⟨hbs, hs⟩ => ⟨?_, hs⟩) fun _ _ h => h
  rw [← List.forall₂_eq_eq_eq, List.forall₂_map_right_iff]
  exact hbs.flip

end Triple

namespace Preserves

variable {P : σ → Prop} {c : EStateM ε σ α}

/-- What is true of all states is true of those that are left. -/
theorem anything (c : EStateM ε σ α) : Preserves (fun _ => True) c :=
  Triple.of_run (fun _ _ _ _ _ => trivial) fun _ _ _ _ _ => trivial

theorem pure (a : α) : Preserves P (Pure.pure a : EStateM ε σ α) :=
  Triple.pure a fun _ h => h

theorem throw (e : ε) : Preserves P (throw e : EStateM ε σ α) :=
  Triple.throw e fun _ h => h

theorem ofExcept {ε : Type} (x : Except ε α) :
    Preserves P (MonadExcept.ofExcept x : EStateM ε σ α) :=
  (Triple.ofExcept x fun _ _ _ h => h).imp (fun _ _ h => h.2) fun _ _ h => h

theorem modify {g : σ → σ} (h : ∀ s, P s → P (g s)) :
    Preserves P (modify g : EStateM ε σ PUnit) :=
  Triple.modify h

theorem bind {f : α → EStateM ε σ β} (hc : Preserves P c) (hf : ∀ a, Preserves P (f a)) :
    Preserves P (c >>= f) :=
  Triple.bind hc hf

theorem bind_get {f : σ → EStateM ε σ β} (hf : ∀ s, Preserves P (f s)) :
    Preserves P ((MonadState.get : EStateM ε σ σ) >>= f) :=
  fun s hp => hf s s hp

theorem ite {p : Prop} [Decidable p] {d : EStateM ε σ α} (hc : Preserves P c)
    (hd : Preserves P d) : Preserves P (if p then c else d) :=
  Triple.ite (fun _ => hc) fun _ => hd

theorem guard {p : Prop} [Decidable p] {e : ε} {f : β → EStateM ε σ α} (hc : Preserves P c) :
    Preserves P (if p then MonadExcept.throw e >>= f else c) :=
  Triple.guard (fun _ _ h => h) fun _ => hc

theorem adaptExcept {g : ε → ε'} (h : Preserves P c) : Preserves P (c.adaptExcept g) :=
  Triple.adaptExcept h

theorem forM {f : γ → EStateM ε σ PUnit} (h : ∀ x, Preserves P (f x)) (l : List γ) :
    Preserves P (l.forM f) := by
  induction l with
  | nil => exact .pure _
  | cons x l ih => exact .bind (h x) fun _ => ih

/-- What every action keeps is kept by some of them, one after another, whatever each of them comes
to: `step` is the state that an action leaves behind. -/
theorem foldl {f : γ → EStateM ε σ α} {step : σ → γ → σ}
    (hstep : ∀ s x, (∃ a, f x s = .ok a (step s x)) ∨ ∃ e, f x s = .error e (step s x))
    (h : ∀ x, Preserves P (f x)) {s : σ} (hs : P s) (l : List γ) : P (l.foldl step s) := by
  refine List.foldlRecOn l step hs fun s hs x _ => ?_
  obtain ⟨a, hrun⟩ | ⟨e, hrun⟩ := hstep s x
  · exact Triple.ok (h x) hs hrun
  · exact Triple.error (h x) hs hrun

end Preserves

end PulseDaq
