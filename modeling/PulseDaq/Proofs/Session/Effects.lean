import PulseDaq.Proofs.Session.Cycles

/-!
# What an operation does

Each operation has one rule that says from where it answers and what both of its outcomes leave
behind. What is known of the session apart from its board and the time (`P`, which is `Blind`) and
what is known of its board (`R`, and what the operation's own calls make of it) are carried along.

* `configure_triple`, `initialise_triple`, `prepare_triple`: before an acquisition.
* `start_triple`, `acquire_triple`, `stop_triple`: an acquisition.
* `close_triple`: the end, in the three steps in which the board may fail.
* `Unchanged`: what a failed operation, unless it is a close, leaves as it was.
-/

namespace PulseDaq

/-- Where stopping leaves a session. -/
def SessionState.stopped : SessionState → SessionState
  | acquiring => ready
  | state => state

theorem SessionState.stopped_of_ne {state : SessionState} (h : state ≠ acquiring) :
    state.stopped = state := by
  cases state with
  | acquiring => exact absurd rfl h
  | closed => rfl
  | initialised => rfl
  | ready => rfl

theorem SessionState.stopped_ne (state : SessionState) : state.stopped ≠ acquiring := by
  cases state <;> nofun

namespace Session

variable {β ω : Type} {P : Session β → Prop} {Q R S : β → Prop}

/-- What also holds whatever is read. -/
def BlindToReads (P : Session β → Prop) : Prop :=
  Blind P ∧ ∀ s readout, s.readout.isSome → P s → P { s with readout := some readout }

theorem Blind.at_state (hP : Blind P) (state : SessionState) :
    Blind fun s => s.state = state ∧ P s :=
  fun s board waited h => ⟨h.1, hP s board waited h.2⟩

/-- Only from its state an operation goes on. -/
theorem require_goes (op : SessionOperation) (state : SessionState) :
    Triple (fun s : Session β => P s ∧ R s.board) (require op state)
      (fun _ s => (s.state = state ∧ P s) ∧ R s.board) fun _ s => P s ∧ R s.board :=
  (require_triple op state).imp (fun _ _ h => ⟨⟨h.1, h.2.1⟩, h.2.2⟩) fun _ _ h => h.2.2

/-- Beside a writer, which an operation of the session alone does not touch. -/
theorem alone_beside {α ε : Type} {P : Session β → Prop} {op : EStateM ε (Session β) α}
    {Q : α → Session β → Prop} {E : ε → Session β → Prop} (h : Triple P op Q E) (w : ω) :
    Triple (fun s => P s.1 ∧ s.2 = w) (alone op) (fun a s => Q a s.1 ∧ s.2 = w)
      fun e s => E e s.1 ∧ s.2 = w := by
  rintro ⟨s, w⟩ ⟨hs, rfl⟩
  have hrun := h s hs
  simp only [alone]
  cases hop : op s with
  | ok a s' =>
    rw [hop] at hrun
    exact ⟨hrun, rfl⟩
  | error e s' =>
    rw [hop] at hrun
    exact ⟨hrun, rfl⟩

variable [Board β]

/-! ## Before an acquisition -/

/-- Settings are for the board of a closed session, and change nothing else. -/
theorem configure_triple (hP : Blind P) (hset : ∀ f i v, Preserves R (Board.set f i v))
    (settings : List Setting) :
    Triple (fun s => P s ∧ R s.board) (configure settings)
      (fun _ s => (s.state = .closed ∧ P s) ∧ R s.board) fun _ s => P s ∧ R s.board := by
  have hall : Preserves (fun s : Session β => (s.state = .closed ∧ P s) ∧ R s.board)
      (settings.forM fun s => retried (call (Board.set s.function s.index s.value))) :=
    .forM (fun s => retried_keeps (hP.at_state _) (hset _ _ _)) settings
  exact .bind (require_goes _ _) fun _ => Triple.imp_error hall fun _ _ h => ⟨h.1.2, h.2⟩

/-- A closed session whose digitizer the writer has taken gets a layout. The writer is not called
before the layout is known. -/
theorem initialise_triple [DataWriter ω] {V : FunctionId → Option UInt32 → UInt32 → Prop}
    (hP : Blind P) (hget : ∀ f i, Triple R (Board.get f i) (fun v b => V f i v ∧ R b) fun _ => R)
    (w : ω) :
    Triple (fun s => (P s.1 ∧ R s.1.board) ∧ s.2 = w) initialise
      (fun _ s => ∃ s₁ layout, (s₁.state = .closed ∧ P s₁) ∧ R s₁.board ∧ layout.MadeOf V ∧
        s.1 = { s₁ with layout := some layout, state := .initialised } ∧
        DataWriter.addDigitizer s₁.id w = .ok () s.2)
      fun e s => (P s.1 ∧ R s.1.board) ∧
        (s.2 = w ∨ ∃ b, e = .writer b ∧ DataWriter.addDigitizer s.1.id w = .error b s.2) := by
  have hunasked {e : SessionError} {s : Session β × ω} (h : (P s.1 ∧ R s.1.board) ∧ s.2 = w) :
      (P s.1 ∧ R s.1.board) ∧ (s.2 = w ∨ ∃ b, e = .writer b ∧
        DataWriter.addDigitizer s.1.id w = .error b s.2) :=
    ⟨h.1, .inl h.2⟩
  refine .bind ((alone_beside (require_goes _ _) w).imp_error fun _ _ => hunasked) fun _ => ?_
  have hgeometry : Triple (fun s : Session β => (s.state = .closed ∧ P s) ∧ R s.board) geometry
      (fun l s => l.MadeOf V ∧ (s.state = .closed ∧ P s) ∧ R s.board)
      fun _ s => P s ∧ R s.board :=
    (geometry_triple (hP.at_state .closed) hget).imp_error fun _ _ h => ⟨h.1.2, h.2⟩
  refine .bind ((alone_beside hgeometry w).imp_error fun _ _ => hunasked) fun layout => ?_
  refine .bind_get fun s₀ h₀ => ?_
  obtain ⟨⟨hlayout, hs, hR⟩, hw⟩ := h₀
  refine .bind (Q := fun _ s => s.1 = s₀.1 ∧ DataWriter.addDigitizer s₀.1.id w = .ok () s.2)
    (.adaptExcept ?_) fun _ => ?_
  · rintro ⟨s, w'⟩ rfl
    obtain rfl : w' = w := hw
    simp only [writing]
    cases hadd : DataWriter.addDigitizer s.id w' with
    | ok _ w'' => exact ⟨rfl, rfl⟩
    | error b w'' => exact ⟨⟨hs.2, hR⟩, .inr ⟨b, rfl, hadd⟩⟩
  · rintro ⟨s, w'⟩ ⟨rfl, hadd⟩
    exact ⟨_, layout, hs, hR, hlayout, rfl, hadd⟩

/-- An initialised session gets its buffers. A readout buffer that is too small is handed back; one
that is not stays with the board if no record buffer can be made for the layout. -/
theorem prepare_triple {A : ReadoutBuffer → Prop} (hP : Blind P)
    (hallocate : Triple R Board.allocate (fun buffer b => A buffer ∧ Q b) fun _ => R)
    (hfree : ∀ buffer, Triple Q (Board.free buffer) (fun _ => R) fun _ => R) :
    Triple (fun s => P s ∧ R s.board) prepare
      (fun _ s => ∃ s₁ layout readout records, (s₁.state = .initialised ∧ P s₁) ∧ Q s₁.board ∧
        s₁.layout = some layout ∧ A readout ∧
        recordsFor s₁.options layout readout.capacity = .ok records ∧
        s = { s₁ with readout := some readout, records := some records, state := .ready })
      fun _ s => P s ∧ (R s.board ∨ Q s.board ∧ ∃ layout capacity e, s.layout = some layout ∧
        recordsFor s.options layout capacity = .error e) := by
  refine .bind ((require_goes _ _).imp_error fun _ _ h => ⟨h.1, .inl h.2⟩) fun _ =>
    .bind_get fun s₀ h₀ => ?_
  split
  next layout hlayout =>
    have hkept : Blind fun s : Session β => (s.state = .initialised ∧ P s) ∧
        s.layout = some layout ∧ s.options = s₀.options :=
      fun s board waited h => ⟨hP.at_state _ s board waited h.1, h.2⟩
    refine .bind (Q := fun readout s => (((s.state = .initialised ∧ P s) ∧
      s.layout = some layout ∧ s.options = s₀.options) ∧ A readout ∧ Q s.board))
      (((once_call hkept hallocate).conseq ?_ (fun _ _ h => h)) ?_) fun readout =>
      .ite (fun _ => ?_) fun _ => ?_
    · rintro _ rfl
      exact ⟨⟨h₀.1, hlayout, rfl⟩, h₀.2⟩
    · rintro _ s ⟨hs, _, hR⟩
      exact ⟨hs.1.2, .inl hR⟩
    · refine .bind (Q := fun _ s => P s ∧ R s.board)
        ((once_call hP (hfree readout)).conseq ?_ (fun _ _ h => h) ?_) fun _ =>
        .throw _ fun _ h => ⟨h.1, .inl h.2⟩
      · exact fun _ h => ⟨h.1.1.2, h.2.2⟩
      · exact fun _ _ ⟨hs, _, hR⟩ => ⟨hs, .inl hR⟩
    · refine .bind (.adaptExcept (.ofExcept _ fun e s he hs => ?_)) fun records =>
        .lift fun hrecords => .modify ?_
      · exact ⟨hs.1.1.2, .inr ⟨hs.2.2, layout, _, e, hs.1.2.1, hs.1.2.2.symm ▸ he⟩⟩
      · rintro s ⟨⟨hs, hlayout', hoptions⟩, hA, hQ⟩
        exact ⟨s, layout, readout, records, hs, hQ, hlayout', hA, hoptions ▸ hrecords, rfl⟩
  · exact .throw _ fun _ h => h ▸ ⟨h₀.1.2, .inl h₀.2⟩

/-! ## Acquisition -/

/-- What asking leaves behind: a running acquisition, or the session as it was. -/
def Asked (P : Session β → Prop) (R Q : β → Prop) (started : Bool) (s : Session β) : Prop :=
  if started then
    ∃ s₁ : Session β, (s₁.state = .ready ∧ P s₁) ∧ Q s₁.board ∧ s = { s₁ with state := .acquiring }
  else
    (s.state = .ready ∧ P s) ∧ R s.board

theorem poll_triple (hP : Blind P) (hget : ∀ f i, Preserves R (Board.get f i))
    (hstart : Triple R Board.start (fun _ => Q) fun _ => R) :
    Triple (fun s : Session β => P s ∧ R s.board) poll (Asked P R Q)
      fun _ s => P s ∧ R s.board := by
  have hstatus : Preserves R (Board.acquisitionStatus (β := β)) :=
    .bind (hget _ _) fun _ => .pure _
  have hasked : Triple (fun s : Session β => (s.state = .ready ∧ P s) ∧ R s.board)
      (retried (call Board.acquisitionStatus)) (fun _ s => (s.state = .ready ∧ P s) ∧ R s.board)
      fun _ s => P s ∧ R s.board :=
    Triple.imp_error (retried_keeps (hP.at_state .ready) hstatus) fun _ _ h => ⟨h.1.2, h.2⟩
  refine .bind (require_goes _ _) fun _ => .bind hasked fun status =>
    .ite (fun _ => .pure _ fun _ h => h) fun _ => ?_
  refine .bind ((once_call (hP.at_state .ready) hstart).imp_error
    fun _ _ ⟨hs, _, hR⟩ => ⟨hs.2, hR⟩) fun _ => ?_
  rintro s ⟨hs, hQ⟩
  exact ⟨s, hs, hQ, rfl⟩

/-- A session that is ready starts or stays ready, however long it waits. -/
theorem start_triple (hP : Blind P) (hget : ∀ f i, Preserves R (Board.get f i))
    (hstart : Triple R Board.start (fun _ => Q) fun _ => R) (patience : Nat) :
    Triple (fun s : Session β => P s ∧ R s.board) (start patience) (Asked P R Q)
      fun _ s => P s ∧ R s.board := by
  induction patience with
  | zero => exact poll_triple hP hget hstart
  | succ patience ih =>
    refine .bind (poll_triple hP hget hstart) fun started =>
      .ite (fun hstarted => ?_) fun hnot => ?_
    · subst hstarted
      exact .pure _ fun _ h => h
    · rw [Bool.not_eq_true] at hnot
      subst hnot
      refine .bind_get fun s₀ h₀ => .bind_modify ih ?_
      rintro _ rfl
      exact ⟨hP _ _ _ h₀.1.2, h₀.2⟩

/-- A read changes the board, the readout buffer and the time. -/
theorem readInto_effect (hP : BlindToReads P)
    (hread : Preserves (fun s : β × ReadoutBuffer => R s.1) Board.read) (buffer : ReadoutBuffer) :
    Preserves (fun s : Session β => s.readout.isSome ∧ P s ∧ R s.board) (readInto buffer) := by
  rintro s ⟨hreadout, hs, hR⟩
  have hrun := hread (s.board, s.readout.getD buffer) hR
  have hleft (left : β × ReadoutBuffer) : P { s with board := left.1, readout := some left.2 } :=
    hP.2 { s with board := left.1 } left.2 hreadout (hP.1 s left.1 s.waited hs)
  simp only [readInto]
  cases h : Board.read (s.board, s.readout.getD buffer) with
  | ok _ left =>
    rw [h] at hrun
    exact ⟨rfl, hleft left, hrun⟩
  | error e left =>
    rw [h] at hrun
    exact ⟨rfl, hleft left, hrun⟩

omit [Board β] in
theorem BlindToReads.at_state (hP : BlindToReads P) (state : SessionState) :
    BlindToReads fun s => s.state = state ∧ P s :=
  ⟨hP.1.at_state state, fun s readout h hs => ⟨hs.1, hP.2 s readout h hs.2⟩⟩

/-- A cycle is refused, or has all that it needs. -/
theorem acquire_cases [DataWriter ω] (s : Session β) (timestamp : UInt64) (w : ω) :
    (acquire timestamp (s, w) = .error (.state .acquire s.state) (s, w)) ∨ s.state = .acquiring ∧
      ∃ layout readout records, s.layout = some layout ∧ s.readout = some readout ∧
        s.records = some records := by
  by_cases hstate : s.state = .acquiring
  · have hrun : acquire timestamp (s, w) = _ :=
      (bind_of_ok (alone_of_ok w (require_ok hstate _))).trans (bind_of_ok rfl)
    cases hlayout : s.layout with
    | none => exact .inl (by rw [hrun]; simp only [hlayout]; rfl)
    | some layout =>
      cases hreadout : s.readout with
      | none => exact .inl (by rw [hrun]; simp only [hlayout, hreadout]; rfl)
      | some readout =>
        cases hrecords : s.records with
        | none => exact .inl (by rw [hrun]; simp only [hlayout, hreadout, hrecords]; rfl)
        | some records => exact .inr ⟨hstate, layout, readout, records, rfl, rfl, rfl⟩
  · exact .inl (acquire_outside hstate timestamp w)

/-- A cycle changes the totals and the records. It fails by its read, or because the session lacks
what it needs, and then changes neither. -/
theorem acquire_triple [DataWriter ω] (hP : BlindToReads P)
    (hread : Preserves (fun s : β × ReadoutBuffer => R s.1) Board.read) (timestamp : UInt64)
    (w : ω) :
    Triple (fun s => (P s.1 ∧ R s.1.board) ∧ s.2 = w) (acquire timestamp)
      (fun _ s => ∃ s₁ stats records, (s₁.state = .acquiring ∧ P s₁) ∧ R s₁.board ∧
        s.1 = { s₁ with stats, records })
      fun _ s => (P s.1 ∧ R s.1.board) ∧ s.2 = w := by
  rintro ⟨s, w⟩ ⟨⟨hs, hR⟩, rfl⟩
  obtain hrefused | ⟨hstate, layout, readout, records, hlayout, hreadout, hrecords⟩ :=
    acquire_cases s timestamp w
  · rw [hrefused]
    exact ⟨⟨hs, hR⟩, rfl⟩
  rw [acquire_eq hstate hlayout hreadout hrecords]
  have hP' := hP.at_state .acquiring
  have hread := retried_triple (fun _ => .modify fun s h => ⟨h.1, hP'.1 _ _ _ h.2.1, h.2.2⟩)
    (readInto_effect hP' hread readout) (fun _ _ h => h) s
    ⟨Option.isSome_iff_exists.2 ⟨readout, hreadout⟩, ⟨hstate, hs⟩, hR⟩
  cases hrun : retried (readInto readout) s with
  | error e s₁ =>
    rw [hrun] at hread
    obtain ⟨-, -, -, hs₁, hR₁⟩ := hread
    exact ⟨⟨hs₁.2, hR₁⟩, rfl⟩
  | ok buffer s₁ =>
    rw [hrun] at hread
    obtain ⟨-, hs₁, hR₁⟩ := hread
    obtain ⟨cycle, stats, left, w', hsettle⟩ := settle_answers layout records buffer.bytes
      timestamp s₁ w
    dsimp only
    rw [hsettle]
    exact ⟨s₁, stats, left, hs₁, hR₁, rfl⟩

/-! ## The end -/

/-- Only a running acquisition is stopped. Before each of its retries the board is as after a
failure. -/
theorem stop_triple (hP : Blind P) (hstop : Triple R Board.stop (fun _ => Q) fun _ => S)
    (hback : ∀ b, S b → R b) :
    Triple (fun s : Session β => P s ∧ R s.board) stop
      (fun _ s => ∃ s₁ : Session β, (s₁.state = .acquiring ∧ P s₁) ∧ Q s₁.board ∧
        s = { s₁ with state := .ready })
      fun _ s => P s ∧ (s.state ≠ .acquiring ∧ R s.board ∨ S s.board) := by
  have hrequire : Triple (fun s : Session β => P s ∧ R s.board) (require .stop .acquiring)
      (fun _ s => (s.state = .acquiring ∧ P s) ∧ R s.board)
      fun _ s => P s ∧ (s.state ≠ .acquiring ∧ R s.board ∨ S s.board) :=
    (require_triple .stop .acquiring).imp (fun _ _ h => ⟨⟨h.1, h.2.1⟩, h.2.2⟩)
      fun _ _ h => ⟨h.2.2.1, .inl ⟨h.2.1, h.2.2.2⟩⟩
  refine .bind hrequire fun _ =>
    .bind ((retried_call (hP.at_state .acquiring) hstop fun _ => hback).imp_error
      fun _ _ ⟨hs, _, hR⟩ => ⟨hs.2, .inr hR⟩) fun _ => ?_
  rintro s ⟨hs, hQ⟩
  exact ⟨s, hs, hQ, rfl⟩

/-- The buffers have been given up, the readout buffer first. -/
def GaveUp (P : Session β → Prop) (s : Session β) : Prop :=
  ∃ s₁ records, P s₁ ∧ s = { s₁ with readout := none, records }

omit [Board β] in
theorem Blind.gaveUp (hP : Blind P) : Blind (GaveUp P) := by
  rintro _ board waited ⟨s₁, records, hs, rfl⟩
  exact ⟨{ s₁ with board, waited }, records, hP s₁ board waited hs, rfl⟩

section Close

variable {F G C D : β → Prop}

theorem release_triple (hP : Blind P)
    (hfree : ∀ s readout, P s → s.readout = some readout →
      Triple Q (Board.free readout) (fun _ => F) fun _ => G)
    (hnone : ∀ s, P s → s.readout = none → ∀ b, Q b → F b) :
    Triple (fun s : Session β => P s ∧ Q s.board) release (fun _ s => GaveUp P s ∧ F s.board)
      fun _ s => GaveUp P s ∧ G s.board := by
  refine .bind_get fun s₀ h₀ => ?_
  split
  next readout hreadout =>
    have hcall : Triple (fun s : Session β => GaveUp P s ∧ Q s.board)
        (once (call (Board.free readout))) (fun _ s => GaveUp P s ∧ F s.board)
        fun _ s => GaveUp P s ∧ G s.board :=
      (once_call hP.gaveUp (hfree s₀ readout h₀.1 hreadout)).imp_error
        fun _ _ ⟨hs, _, hG⟩ => ⟨hs, hG⟩
    refine .bind_modify hcall ?_
    rintro s rfl
    exact ⟨⟨s, s.records, h₀.1, rfl⟩, h₀.2⟩
  next hnot =>
    have hreadout : s₀.readout = none := Option.eq_none_iff_forall_ne_some.2 hnot
    refine .pure _ ?_
    rintro s rfl
    exact ⟨⟨s, s.records, h₀.1, by rw [← hreadout]⟩, hnone s h₀.1 hreadout _ h₀.2⟩

/-- Nothing happens to a closed session. -/
theorem close_closed {s : Session β} (hclosed : s.state = .closed) : close s = .ok () s := by
  refine (bind_of_ok rfl).trans ?_
  rw [if_pos hclosed]
  rfl

/-- Giving up fails by the call that hands back the readout buffer, or by the call that releases the
board. -/
theorem giveUp_triple (hP : Blind P)
    (hfree : ∀ s readout, P s → s.readout = some readout →
      Triple Q (Board.free readout) (fun _ => F) fun _ => G)
    (hnone : ∀ s, P s → s.readout = none → ∀ b, Q b → F b)
    (hclose : Triple F Board.close (fun _ => C) fun _ => D) :
    Triple (fun s : Session β => P s ∧ Q s.board) giveUp
      (fun _ s => ∃ s₁ : Session β, P s₁ ∧ C s₁.board ∧
        s = { s₁ with readout := none, records := none, state := .closed })
      fun _ s => GaveUp P s ∧ (G s.board ∨ D s.board) := by
  have hempty : Blind fun s : Session β => GaveUp P s ∧ s.records = none :=
    fun s board waited h => ⟨hP.gaveUp s board waited h.1, h.2⟩
  refine .bind ((release_triple hP hfree hnone).imp_error fun _ _ h => ⟨h.1, .inl h.2⟩) fun _ => ?_
  refine .bind_modify (.bind ((once_call hempty hclose).imp_error
    fun _ _ ⟨hs, _, hC⟩ => ⟨hs.1, .inr hC⟩) fun _ => .modify ?_) ?_
  · rintro _ ⟨⟨⟨s₁, records, hs, rfl⟩, rfl⟩, hC⟩
    exact ⟨s₁, hs, hC, rfl⟩
  · rintro _ ⟨⟨s₁, records, hs, rfl⟩, hF⟩
    exact ⟨⟨⟨s₁, none, hs, rfl⟩, rfl⟩, hF⟩

/-- The acquisition was stopped if it was running. -/
def Stopped (P : Session β → Prop) (s : Session β) : Prop :=
  ∃ s₁ : Session β, P s₁ ∧ s = { s₁ with state := s₁.state.stopped }

omit [Board β] in
theorem Blind.stopped (hP : Blind P) : Blind (Stopped P) := by
  rintro _ board waited ⟨s₁, hs, rfl⟩
  exact ⟨{ s₁ with board, waited }, hP s₁ board waited hs, rfl⟩

/-- Closing an open session fails by the call that stops the acquisition, and has given up nothing;
or later, and has given up the readout buffer. -/
theorem close_triple (hP : Blind P)
    (hstop : Triple R Board.stop (fun _ => Q) fun _ => S) (hback : ∀ b, S b → R b)
    (hfree : ∀ s readout, P s → s.readout = some readout →
      Triple Q (Board.free readout) (fun _ => F) fun _ => G)
    (hnone : ∀ s, P s → s.readout = none → ∀ b, Q b → F b)
    (hclose : Triple F Board.close (fun _ => C) fun _ => D) :
    Triple
      (fun s : Session β => (s.state ≠ .closed ∧ P s) ∧
        if s.state = .acquiring then R s.board else Q s.board)
      close
      (fun _ s => ∃ s₁ : Session β, P s₁ ∧ C s₁.board ∧
        s = { s₁ with readout := none, records := none, state := .closed })
      fun _ s => s.state = .acquiring ∧ P s ∧ S s.board ∨
        ∃ s₁ records, P s₁ ∧ (G s₁.board ∨ D s₁.board) ∧
          s = { s₁ with readout := none, records, state := s₁.state.stopped } := by
  rw [close_eq]
  refine .bind_get fun s₀ ⟨⟨hopen, hs⟩, hboard⟩ => ?_
  have hgiveUp : Triple (fun s : Session β => Stopped P s ∧ Q s.board) giveUp
      (fun _ s => ∃ s₁ : Session β, P s₁ ∧ C s₁.board ∧
        s = { s₁ with readout := none, records := none, state := .closed })
      fun _ s => s.state = .acquiring ∧ P s ∧ S s.board ∨
        ∃ s₁ records, P s₁ ∧ (G s₁.board ∨ D s₁.board) ∧
          s = { s₁ with readout := none, records, state := s₁.state.stopped } := by
    refine (giveUp_triple (G := G) hP.stopped ?_ ?_ hclose).imp ?_ ?_
    · rintro _ readout ⟨s₁, hs₁, rfl⟩ hreadout
      exact hfree s₁ readout hs₁ hreadout
    · rintro _ ⟨s₁, hs₁, rfl⟩ hreadout
      exact hnone s₁ hs₁ hreadout
    · rintro _ _ ⟨_, ⟨s₁, hs₁, rfl⟩, hC, rfl⟩
      exact ⟨s₁, hs₁, hC, rfl⟩
    · rintro _ _ ⟨⟨_, records, ⟨s₁, hs₁, rfl⟩, rfl⟩, h⟩
      exact .inr ⟨s₁, records, hs₁, h, rfl⟩
  dsimp only
  refine .ite (fun hclosed => absurd hclosed hopen) fun _ => .ite (fun hacq => ?_) fun hacq => ?_
  · rw [if_pos hacq] at hboard
    refine .bind (Q := fun _ s => Stopped P s ∧ Q s.board)
      ((stop_triple (hP.at_state .acquiring) hstop hback).conseq ?_ ?_ ?_) fun _ => hgiveUp
    · rintro _ rfl
      exact ⟨⟨hacq, hs⟩, hboard⟩
    · rintro _ _ ⟨s₁, ⟨hstate, -, hs₁⟩, hQ, rfl⟩
      exact ⟨⟨s₁, hs₁, by rw [hstate]; rfl⟩, hQ⟩
    · rintro _ s ⟨⟨hstate, hs⟩, ⟨hnot, -⟩ | hS⟩
      · exact absurd hstate hnot
      · exact .inl ⟨hstate, hs, hS⟩
  · rw [if_neg hacq] at hboard
    refine hgiveUp.pre ?_
    rintro s rfl
    exact ⟨⟨s, hs, by rw [SessionState.stopped_of_ne hacq]⟩, hboard⟩

end Close

/-! ## Refusals -/

/-- However long it would wait, a session that is not ready does not start. -/
theorem start_refused {s : Session β} (h : s.state ≠ .ready) (patience : Nat) :
    start patience s = .error (.state .start s.state) s := by
  have hpoll : poll s = .error (.state .start s.state) s := bind_of_error (require_refused h _)
  cases patience with
  | zero => exact hpoll
  | succ patience => exact bind_of_error hpoll

/-! ## What a failure leaves as it was -/

/-- The session is what it was but for its board, the time, and what its readout buffer holds. -/
structure Unchanged (s₀ s : Session β) : Prop where
  state : s.state = s₀.state
  layout : s.layout = s₀.layout
  readout : s.readout.isSome = s₀.readout.isSome
  records : s.records = s₀.records
  stats : s.stats = s₀.stats

omit [Board β] in
theorem Unchanged.refl (s : Session β) : Unchanged s s :=
  ⟨rfl, rfl, rfl, rfl, rfl⟩

omit [Board β] in
theorem blind_unchanged (s₀ : Session β) : BlindToReads (Unchanged s₀) :=
  ⟨fun _ _ _ h => ⟨h.state, h.layout, h.readout, h.records, h.stats⟩,
    fun _ _ h hs => ⟨hs.state, hs.layout, h.symm.trans hs.readout, hs.records, hs.stats⟩⟩

end Session

end PulseDaq
