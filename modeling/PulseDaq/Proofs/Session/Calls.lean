import PulseDaq.Proofs.Triple
import PulseDaq.Session.Basic

/-!
# Calls of the board

A call of the board touches the board of the session and, if it is tried again, the time that the
session has waited. Whatever is known of the rest of the session (`Session.Blind`) stays true, and
of the board that is true which its own call makes true.

* `once_call`, `retried_call`: a call without and with retries. What is known of the board before
  a call with retries has to be known after each of its failures, too.
* `geometry_triple`: a layout is made of values that the board has answered (`Layout.MadeOf`).
* `giveUp`: what remains of closing a session once its acquisition has stopped (`close_eq`).
-/

namespace PulseDaq

/-- What is true before a call and after each of its failures is true before each of its retries. -/
theorem RetryPolicy.attempt_triple {σ α : Type} {P : σ → Prop} {Q : α → σ → Prop}
    {E : BoardError → σ → Prop} (p : RetryPolicy) {sleep : Duration → EStateM BoardError σ Unit}
    {c : EStateM BoardError σ α} (hsleep : ∀ d, Triple P (sleep d) (fun _ => P) fun _ _ => False)
    (hc : Triple P c Q E) (hE : ∀ e s, E e s → P s) :
    Triple P (p.attempt sleep c) Q fun _ s => ∃ e, E e s := by
  unfold attempt
  -- Every retry has a delay of its own.
  generalize p.initialDelay = d
  induction p.retries.toNat generalizing d with
  | zero =>
    intro s hs
    have h₁ := hc s hs
    unfold attemptFrom
    cases hrun : c s with
    | ok a s' => rwa [hrun] at h₁
    | error e s' =>
      rw [hrun] at h₁
      exact ⟨e, h₁⟩
  | succ left ih =>
    intro s hs
    have h₁ := hc s hs
    unfold attemptFrom
    cases hrun : c s with
    | ok a s' => rwa [hrun] at h₁
    | error e s' =>
      rw [hrun] at h₁
      by_cases ht : e.isTransient
      · simp only [ht, if_true]
        exact Triple.bind ((hsleep d).imp_error fun _ _ h => h.elim) (fun _ => ih _) s' (hE e s' h₁)
      · simp only [ht, Bool.false_eq_true, if_false]
        exact ⟨e, h₁⟩

namespace Session

variable {β ω α : Type} {P : Session β → Prop} {R : β → Prop}

/-- What holds of a session whatever its board does and however long it waits. -/
def Blind (P : Session β → Prop) : Prop :=
  ∀ s board waited, P s → P { s with board, waited }

theorem require_ok {s : Session β} {state : SessionState} (h : s.state = state)
    (op : SessionOperation) : require op state s = .ok () s := by
  refine (bind_of_ok rfl).trans ?_
  rw [if_neg (Decidable.not_not.2 h)]
  rfl

theorem require_refused {s : Session β} {state : SessionState} (h : s.state ≠ state)
    (op : SessionOperation) : require op state s = .error (.state op s.state) s := by
  refine (bind_of_ok rfl).trans ?_
  rw [if_pos h]
  rfl

/-- The session is in the state, or the operation is refused and nothing has happened. -/
theorem require_triple {P : Session β → Prop} (op : SessionOperation) (state : SessionState) :
    Triple P (require op state) (fun _ s => s.state = state ∧ P s)
      fun e s => e = .state op s.state ∧ s.state ≠ state ∧ P s := by
  refine .bind_get fun s₀ h₀ => .ite (fun hne => ?_) fun heq => ?_
  · refine .throw _ ?_
    rintro s rfl
    exact ⟨rfl, hne, h₀⟩
  · refine .pure _ ?_
    rintro s rfl
    exact ⟨Decidable.not_not.1 heq, h₀⟩

/-- The errors of a call are the board's. -/
theorem once_triple {c : EStateM BoardError (Session β) α} {Q : α → Session β → Prop}
    {E : BoardError → Session β → Prop} (h : Triple P c Q E) :
    Triple P (once c) Q fun e s => (∃ b, e = .board b) ∧ ∃ e, E e s :=
  .adaptExcept <| h.imp_error fun b _ h => ⟨⟨b, rfl⟩, b, h⟩

/-- Retries change nothing about that. -/
theorem retried_triple {c : EStateM BoardError (Session β) α} {Q : α → Session β → Prop}
    {E : BoardError → Session β → Prop}
    (hwait : ∀ d, Triple P (wait (ε := BoardError) d) (fun _ => P) fun _ _ => False)
    (h : Triple P c Q E) (hE : ∀ e s, E e s → P s) :
    Triple P (retried c) Q fun e s => (∃ b, e = .board b) ∧ ∃ e, E e s := by
  refine .bind_get fun s₀ h₀ => ?_
  have htried := once_triple (RetryPolicy.attempt_triple s₀.options.retry hwait h hE)
  refine Triple.conseq htried (fun _ hs => hs ▸ h₀) (fun _ _ h => h) ?_
  rintro _ s ⟨hboard, -, h⟩
  exact ⟨hboard, h⟩

/-! ## What stays -/

section Calls

variable {c : EStateM BoardError β α} {A : α → Prop} {Q : α → β → Prop}
  {E : BoardError → β → Prop}

theorem wait_triple (hP : Blind P) (d : Duration) :
    Triple (fun s => P s ∧ R s.board) (wait (ε := BoardError) d) (fun _ s => P s ∧ R s.board)
      fun _ _ => False :=
  .modify fun _ h => ⟨hP _ _ _ h.1, h.2⟩

/-- What is known of the board's outcome is known of the session's board. -/
theorem call_triple (hP : Blind P) (hc : Triple R c Q E) :
    Triple (fun s => P s ∧ R s.board) (call c) (fun a s => P s ∧ Q a s.board)
      fun e s => P s ∧ E e s.board := by
  rintro s ⟨hs, hboard⟩
  have hrun := hc s.board hboard
  unfold call
  cases h : c s.board with
  | ok a board =>
    rw [h] at hrun
    exact ⟨hP _ _ s.waited hs, hrun⟩
  | error e board =>
    rw [h] at hrun
    exact ⟨hP _ _ s.waited hs, hrun⟩

/-- A call without retries. -/
theorem once_call (hP : Blind P) (hc : Triple R c Q E) :
    Triple (fun s => P s ∧ R s.board) (once (call c)) (fun a s => P s ∧ Q a s.board)
      fun _ s => P s ∧ ∃ e, E e s.board := by
  refine (once_triple (call_triple hP hc)).imp_error ?_
  rintro _ s ⟨-, e, hs, he⟩
  exact ⟨hs, e, he⟩

/-- A call with retries. -/
theorem retried_call (hP : Blind P) (hc : Triple R c Q E) (hE : ∀ e b, E e b → R b) :
    Triple (fun s => P s ∧ R s.board) (retried (call c)) (fun a s => P s ∧ Q a s.board)
      fun _ s => P s ∧ ∃ e, E e s.board := by
  have htried := retried_triple (wait_triple hP) (call_triple hP hc) fun e s h =>
    ⟨h.1, hE e s.board h.2⟩
  refine htried.imp_error ?_
  rintro _ s ⟨-, e, hs, he⟩
  exact ⟨hs, e, he⟩

theorem once_keeps (hP : Blind P) (hc : Preserves R c) :
    Preserves (fun s => P s ∧ R s.board) (once (call c)) :=
  (once_call hP hc).imp_error fun _ _ ⟨hs, _, hR⟩ => ⟨hs, hR⟩

theorem retried_keeps (hP : Blind P) (hc : Preserves R c) :
    Preserves (fun s => P s ∧ R s.board) (retried (call c)) :=
  (retried_call hP hc fun _ _ h => h).imp_error fun _ _ ⟨hs, _, hR⟩ => ⟨hs, hR⟩

/-- What a call answers, the rest staying as it is. -/
theorem once_answer (hP : Blind P) (hc : Triple R c (fun a b => A a ∧ R b) fun _ => R) :
    Triple (fun s => P s ∧ R s.board) (once (call c)) (fun a s => A a ∧ P s ∧ R s.board)
      fun _ s => P s ∧ R s.board :=
  (once_call hP hc).imp (fun _ _ ⟨hs, ha, hR⟩ => ⟨ha, hs, hR⟩) fun _ _ ⟨hs, _, hR⟩ => ⟨hs, hR⟩

theorem retried_answer (hP : Blind P) (hc : Triple R c (fun a b => A a ∧ R b) fun _ => R) :
    Triple (fun s => P s ∧ R s.board) (retried (call c)) (fun a s => A a ∧ P s ∧ R s.board)
      fun _ s => P s ∧ R s.board :=
  (retried_call hP hc fun _ _ h => h).imp (fun _ _ ⟨hs, ha, hR⟩ => ⟨ha, hs, hR⟩)
    fun _ _ ⟨hs, _, hR⟩ => ⟨hs, hR⟩

end Calls

/-! ## Beside a writer -/

/-- An operation of the session alone does the same beside a writer. -/
theorem alone_triple {ε : Type} {op : EStateM ε (Session β) α}
    {Q : α → Session β → Prop} {E : ε → Session β → Prop} (h : Triple P op Q E) :
    Triple (fun s => P s.1) (alone op) (fun a (s : Session β × ω) => Q a s.1)
      fun e s => E e s.1 := by
  rintro ⟨s, w⟩ hs
  have h₁ := h s hs
  simp only [alone]
  cases hrun : op s with
  | ok a s' => rwa [hrun] at h₁
  | error e s' => rwa [hrun] at h₁

theorem writing_keeps (op : EStateM WriterError ω α) (P : Session β → Prop) :
    Preserves (fun s => P s.1) (writing op) := by
  rintro ⟨s, w⟩ hs
  simp only [writing]
  cases op w with
  | ok a w => exact hs
  | error e w => exact hs

end Session

/-! ## The geometry -/

/-- A layout is made of values of the board, of which `V` is known. -/
def Layout.MadeOf (V : FunctionId → Option UInt32 → UInt32 → Prop) (l : Layout) : Prop :=
  ∃ (configuration : BoardConfiguration) (mask recordLength : UInt32)
    (settings : List (Group × TriggerSettings)),
    V .boardConfiguration none configuration.value ∧ V .groupEnableMask none mask ∧
      (if configuration.waveform then V .recordLength (some 0) recordLength else recordLength = 0) ∧
      recordLength.toNat ≤ GroupFormat.maxSamples ∧
      settings.map (·.1) = GroupMask.groups mask.toUInt8.toNat ∧ settings ≠ [] ∧
      l = .ofRegisters configuration.extras configuration.waveform recordLength settings

namespace Layout

variable {V : FunctionId → Option UInt32 → UInt32 → Prop} {l : Layout}

/-- The records of a layout have room for the samples of its format. -/
theorem MadeOf.elementSize (h : l.MadeOf V) :
    l.elementSize = l.kind.elementSize l.format.samples := by
  obtain ⟨configuration, mask, recordLength, settings, -, -, -, -, -, -, rfl⟩ := h
  rfl

theorem MadeOf.elementSize_pos (h : l.MadeOf V) : 0 < l.elementSize := by
  rw [h.elementSize]
  exact l.kind.elementSize_pos _

theorem MadeOf.samples_le (h : l.MadeOf V) : l.format.samples ≤ GroupFormat.maxSamples := by
  obtain ⟨configuration, mask, recordLength, settings, -, -, -, -, -, -, rfl⟩ := h
  exact GroupFormat.samples_withSamples_le _ _

/-- An event whose record has the size of the layout has no more samples than a record can count. -/
theorem MadeOf.samples_lt (h : l.MadeOf V) {e : Event} (hkind : e.kind = l.kind)
    (hsize : e.elementSize = l.elementSize) : e.samples.length < UInt16.size := by
  have hle := h.samples_le
  rw [h.elementSize, Event.elementSize, hkind] at hsize
  cases e with
  | compact e => exact Nat.succ_pos _
  | extended e => exact Nat.succ_pos _
  | waveform e =>
    rw [← hkind] at hsize
    have hmost : GroupFormat.maxSamples < UInt16.size := by decide
    have hcount := RecordKind.elementSize_waveform_inj hsize
    omega

end Layout

namespace Session

variable {β : Type} [Board β] {P : Session β → Prop} {R : β → Prop}
  {V : FunctionId → Option UInt32 → UInt32 → Prop}

theorem value_triple (hP : Blind P)
    (hget : ∀ f i, Triple R (Board.get f i) (fun v b => V f i v ∧ R b) fun _ => R)
    (f : FunctionId) (index : Option UInt32) :
    Triple (fun s => P s ∧ R s.board) (value f index) (fun v s => V f index v ∧ P s ∧ R s.board)
      fun _ s => P s ∧ R s.board :=
  retried_answer hP (hget f index)

theorem value_keeps (hP : Blind P)
    (hget : ∀ f i, Triple R (Board.get f i) (fun v b => V f i v ∧ R b) fun _ => R)
    (f : FunctionId) (index : Option UInt32) :
    Preserves (fun s => P s ∧ R s.board) (value f index) :=
  (value_triple hP hget f index).imp (fun _ _ h => h.2) fun _ _ h => h

theorem triggerSettings_keeps (hP : Blind P)
    (hget : ∀ f i, Triple R (Board.get f i) (fun v b => V f i v ∧ R b) fun _ => R) (g : Group) :
    Preserves (fun s => P s ∧ R s.board) (triggerSettings g) :=
  .bind (value_keeps hP hget _ _) fun _ => .bind (value_keeps hP hget _ _) fun _ =>
    .bind (value_keeps hP hget _ _) fun _ => .bind (value_keeps hP hget _ _) fun _ => .pure _

/-- The settings that are read are those of the groups. -/
theorem settings_triple (hP : Blind P)
    (hget : ∀ f i, Triple R (Board.get f i) (fun v b => V f i v ∧ R b) fun _ => R)
    (groups : List Group) :
    Triple (fun s => P s ∧ R s.board)
      (groups.mapM fun g => do return (g, ← triggerSettings g))
      (fun settings s => settings.map (·.1) = groups ∧ P s ∧ R s.board)
      fun _ s => P s ∧ R s.board :=
  .mapM (fun g => .bind (triggerSettings_keeps hP hget g) fun _ => .pure _ fun _ h => ⟨rfl, h⟩)
    groups

/-- Reading the geometry off the board gives a layout that is made of its values. -/
theorem geometry_triple (hP : Blind P)
    (hget : ∀ f i, Triple R (Board.get f i) (fun v b => V f i v ∧ R b) fun _ => R) :
    Triple (fun s => P s ∧ R s.board) geometry (fun l s => l.MadeOf V ∧ P s ∧ R s.board)
      fun _ s => P s ∧ R s.board := by
  have hconfiguration : Triple R Board.boardConfiguration
      (fun c b => V .boardConfiguration none c.value ∧ R b) fun _ => R :=
    .bind (hget _ _) fun v => .pure _ fun _ h => h
  have hmask : Triple R Board.groupEnableMask
      (fun m b => (∃ v : UInt32, m = v.toUInt8 ∧ V .groupEnableMask none v) ∧ R b) fun _ => R :=
    .bind (hget _ _) fun v => .pure _ fun _ h => ⟨⟨v, rfl, h.1⟩, h.2⟩
  refine .bind_get fun s₀ h₀ => .guard (fun _ s hs => hs ▸ h₀) fun _ => ?_
  refine .bind ((retried_answer hP hconfiguration).pre fun s hs => hs ▸ h₀) fun configuration => ?_
  refine .lift fun hc => .bind (retried_answer hP hmask) fun mask => .lift ?_
  rintro ⟨mask, rfl, hm⟩
  refine .guard (fun _ s hs => hs) fun hgroups => ?_
  have hne {settings : List (Group × TriggerSettings)}
      (h : settings.map (·.1) = GroupMask.groups mask.toUInt8.toNat) : settings ≠ [] := by
    rintro rfl
    exact hgroups (by rw [← h]; rfl)
  refine .ite (fun hwaveform => .bind (value_triple hP hget _ _) fun recordLength => ?_)
    fun hnot => .bind (.pure (Q := fun v s => v = 0 ∧ P s ∧ R s.board) _ fun _ h => ⟨rfl, h⟩)
      fun recordLength => ?_
  -- From here on it does not matter where the record length comes from.
  all_goals
    refine .lift fun hv => .guard (fun _ s hs => hs) fun hmost => ?_
    refine .bind (settings_triple hP hget _) fun settings => .lift fun hs => .pure _ fun s h => ?_
    refine ⟨⟨configuration, mask, recordLength, settings, hc, hm, ?_, Nat.le_of_not_lt hmost, hs,
      hne hs, rfl⟩, h⟩
  · rwa [if_pos hwaveform]
  · rwa [if_neg hnot]

/-! ## The end -/

/-- Hand back and release the board, the acquisition being stopped. -/
def giveUp : EStateM SessionError (Session β) Unit := do
  release
  modify fun s => { s with records := none }
  once (call Board.close)
  modify fun s => { s with state := .closed }

/-- Closing is stopping, if there is anything to stop, and giving up. -/
theorem close_eq : (close : EStateM SessionError (Session β) Unit) = (do
    let state := (← get).state
    if state = .closed then
      return
    if state = .acquiring then
      stop
    giveUp) :=
  rfl

end Session

end PulseDaq
