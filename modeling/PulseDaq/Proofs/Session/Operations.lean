import PulseDaq.Proofs.Session.Calls

/-!
# What the operations of a session do to its parts

`Session.parts` is the state of a session with the presence of its layout, its readout buffer and
its record buffer. Calls of the board leave the parts alone (`once_parts`, `retried_parts`), and
each operation has one lemma that says from which parts it answers and which parts both of its
outcomes leave behind. The board may answer and change as it likes.

* `configure_parts`, `initialise_parts`, `prepare_parts`: before an acquisition.
* `start_parts`, `acquire_parts`, `stop_parts`: an acquisition.
* `close_parts`: the end. A failure leaves the session without its readout buffer, and not closed.
-/

namespace PulseDaq

/-- The state of a session and what it holds. -/
structure SessionParts where
  state : SessionState
  layout : Bool
  readout : Bool
  records : Bool
  deriving DecidableEq, Repr

namespace SessionParts

/-- An acquisition is running and a cycle has all that it needs. -/
def cycling : SessionParts :=
  ⟨.acquiring, true, true, true⟩

/-- After the last stop, before the buffers are given up. -/
def stopped (p : SessionParts) : SessionParts :=
  if p.state = .acquiring then { p with state := .ready } else p

end SessionParts

namespace Session

variable {β ω : Type} {p : SessionParts}

/-- The state of the session and what it holds. -/
def parts (s : Session β) : SessionParts where
  state := s.state
  layout := s.layout.isSome
  readout := s.readout.isSome
  records := s.records.isSome

/-- The board has failed and the session holds what it held. -/
def BoardFailure (p : SessionParts) (e : SessionError) (s : Session β) : Prop :=
  (∃ b, e = .board b) ∧ s.parts = p

/-! ## Calls of the board -/

theorem require_parts (op : SessionOperation) (state : SessionState) :
    Triple (fun s : Session β => s.parts = p) (require op state)
      (fun _ s => p.state = state ∧ s.parts = p) fun _ s => s.parts = p := by
  refine (require_triple op state).imp ?_ fun _ _ h => h.2.2
  rintro _ s ⟨hstate, rfl⟩
  exact ⟨hstate, rfl⟩

theorem blind_parts : Blind fun s : Session β => s.parts = p :=
  fun _ _ _ h => h

/-- A call of the board with retries. -/
theorem retried_parts {α : Type} (c : EStateM BoardError β α) :
    Preserves (fun s : Session β => s.parts = p) (retried (call c)) := by
  simpa using retried_keeps blind_parts (Preserves.anything c)

/-- A call of the board without retries. -/
theorem once_parts {α : Type} (c : EStateM BoardError β α) :
    Preserves (fun s : Session β => s.parts = p) (once (call c)) := by
  simpa using once_keeps blind_parts (Preserves.anything c)

variable [Board β]

/-- Reading the geometry off the board, whatever comes of it. -/
theorem geometry_parts : Preserves (fun s : Session β => s.parts = p) geometry := by
  have hget (f : FunctionId) (i : Option UInt32) :
      Triple (fun _ : β => True) (Board.get f i) (fun _ _ => True ∧ True) fun _ _ => True :=
    Triple.imp (Preserves.anything _) (fun _ _ _ => ⟨trivial, trivial⟩) fun _ _ _ => trivial
  have h := geometry_triple (V := fun _ _ _ => True) (blind_parts (β := β) (p := p)) hget
  exact h.conseq (fun _ hs => ⟨hs, trivial⟩) (fun _ _ hs => hs.2.1) fun _ _ hs => hs.1

/-! ## Before an acquisition -/

theorem configure_parts (settings : List Setting) :
    Preserves (fun s : Session β => s.parts = p) (configure settings) :=
  Triple.bind (require_parts _ _) fun _ => .lift fun _ =>
    Preserves.forM (fun _ => retried_parts _) _

/-- A closed session gets its layout; a failure changes nothing. -/
theorem initialise_parts [DataWriter ω] :
    Triple (fun s => s.1.parts = p) (initialise (β := β) (ω := ω))
      (fun _ s => p.state = .closed ∧ s.1.parts = { p with state := .initialised, layout := true })
      fun _ s => s.1.parts = p := by
  refine .bind (alone_triple (require_parts _ _)) fun _ => .lift fun hstate => ?_
  refine .bind (alone_triple geometry_parts) fun layout => .bind_get fun s₀ h₀ => ?_
  have hadd := writing_keeps (β := β) (DataWriter.addDigitizer (ω := ω) s₀.1.id) (·.parts = p)
  refine .bind (.adaptExcept (hadd.pre ?_)) fun _ => ?_
  · rintro s rfl
    exact h₀
  · rintro ⟨s, w⟩ rfl
    exact ⟨hstate, rfl⟩

/-- An initialised session gets its buffers; a failure changes nothing. -/
theorem prepare_parts :
    Triple (fun s : Session β => s.parts = p) prepare
      (fun _ s => p.state = .initialised ∧ p.layout ∧
        s.parts = { p with state := .ready, readout := true, records := true })
      fun _ s => s.parts = p := by
  refine .bind (require_parts _ _) fun _ => .lift fun hstate => .bind_get fun s₀ h₀ => ?_
  split
  next layout hlayout =>
    have hp : p.layout = true := by rw [← h₀, parts, hlayout, Option.isSome_some]
    refine .bind ((once_parts _).pre fun _ h => h ▸ h₀) fun readout =>
      .ite (fun _ => ?_) fun _ => ?_
    · exact .bind (once_parts _) fun _ _ h => h
    · refine .bind (Preserves.adaptExcept (.ofExcept _)) fun records => .modify ?_
      rintro s rfl
      exact ⟨hstate, hp, rfl⟩
  · exact .throw _ fun _ h => h ▸ h₀

/-! ## Acquisition -/

theorem poll_parts :
    Triple (fun s : Session β => s.parts = p) poll
      (fun started s => p.state = .ready ∧
        s.parts = if started then { p with state := .acquiring } else p)
      fun _ s => s.parts = p := by
  refine .bind (require_parts _ _) fun _ => .lift fun hstate => ?_
  refine .bind (retried_parts _) fun status => .ite (fun _ => ?_) fun _ => ?_
  · exact .pure _ fun s hs => ⟨hstate, hs⟩
  refine .bind (once_parts _) fun _ => .bind_modify
    (.pure (P := fun s => s.parts = { p with state := .acquiring }) true fun _ hs => ⟨hstate, hs⟩)
    ?_
  rintro s rfl
  rfl

/-- A session that is ready starts or stays ready, however long it waits. -/
theorem start_parts (patience : Nat) :
    Triple (fun s : Session β => s.parts = p) (start patience)
      (fun started s => p.state = .ready ∧
        s.parts = if started then { p with state := .acquiring } else p)
      fun _ s => s.parts = p := by
  induction patience with
  | zero => exact poll_parts
  | succ patience ih =>
    refine .bind poll_parts fun started => .lift fun hstate =>
      .ite (fun hstarted => ?_) fun hnot => ?_
    · exact .pure _ fun s hs => ⟨hstate, by rw [hs, if_pos hstarted, if_pos rfl]⟩
    · simp only [if_neg hnot]
      exact .bind_get fun s₀ h₀ => .bind (.modify fun s hs => hs ▸ h₀) fun _ => ih

omit [Board β] in
theorem count_keeps {ε : Type} {E : ε → Session β → Prop} (change : Stats → Stats) :
    Triple (fun s : Session β => s.parts = p) (count change) (fun _ s => s.parts = p) E :=
  .modify fun _ h => h

/-- A read leaves a readout buffer behind, whatever its outcome. -/
theorem readInto_keeps (h : p.readout = true) (buffer : ReadoutBuffer) :
    Preserves (fun s : Session β => s.parts = p) (readInto buffer) := by
  rintro s rfl
  simp only [parts] at h
  simp only [readInto]
  cases Board.read (s.board, s.readout.getD buffer) with
  | ok _ left => simp [parts, h]
  | error _ left => simp [parts, h]

omit [Board β] in
/-- Decoding does not fail, and leaves a record buffer behind. -/
theorem decodeInto_keeps {ε : Type} {E : ε → Session β → Prop} (h : p.records = true)
    (layout : Layout) (records : RecordBuffer) (bytes : Bytes) :
    Triple (fun s : Session β => s.parts = p) (decodeInto layout records bytes)
      (fun _ s => s.parts = p) E := by
  unfold decodeInto
  split
  all_goals
    refine .bind (count_keeps _) fun _ => .bind (.modify ?_) fun _ => .pure _ fun _ h => h
    rintro s rfl
    simp only [parts] at h ⊢
    rw [h, Option.isSome_some]

omit [Board β] in
/-- Storing does not fail: a failed write is an outcome. -/
theorem store_keeps {ε : Type} [DataWriter ω] {E : ε → Session β × ω → Prop} (layout : Layout)
    (records : RecordBuffer) (bytes events : Nat) (timestamp : UInt64) :
    Triple (fun s : Session β × ω => s.1.parts = p) (store layout records bytes events timestamp)
      (fun _ s => s.1.parts = p) E := by
  rintro ⟨s, w⟩ hs
  simp only [store]
  cases DataWriter.writeBuffer layout.kind records s.id timestamp w with
  | ok _ w => exact hs
  | error e w => exact hs

omit [Board β] in
theorem parts_eq_cycling_iff {s : Session β} : s.parts = .cycling ↔
    s.state = .acquiring ∧ ∃ layout readout records,
      s.layout = some layout ∧ s.readout = some readout ∧ s.records = some records := by
  simp only [parts, SessionParts.cycling, SessionParts.mk.injEq, Option.isSome_iff_exists]
  constructor
  · rintro ⟨hstate, ⟨layout, hl⟩, ⟨readout, hr⟩, records, hb⟩
    exact ⟨hstate, layout, readout, records, hl, hr, hb⟩
  · rintro ⟨hstate, layout, readout, records, hl, hr, hb⟩
    exact ⟨hstate, ⟨layout, hl⟩, ⟨readout, hr⟩, records, hb⟩

/-- A cycle that has all it needs keeps it, and fails by the board's errors only. -/
theorem acquire_parts [DataWriter ω] (timestamp : UInt64) :
    Triple (fun s : Session β × ω => s.1.parts = .cycling) (acquire timestamp)
      (fun _ s => s.1.parts = .cycling) fun e s => BoardFailure .cycling e s.1 := by
  have hrequire : Triple (fun s : Session β => s.parts = .cycling) (require .acquire .acquiring)
      (fun _ s => s.parts = .cycling) (BoardFailure .cycling) := by
    refine (require_triple _ _).imp (fun _ _ h => h.2) ?_
    rintro _ s ⟨-, hstate, hs⟩
    exact absurd (congrArg SessionParts.state hs) hstate
  refine .bind (alone_triple hrequire) fun _ => .bind_get fun s₀ h₀ => ?_
  obtain ⟨-, layout, readout, records, hlayout, hreadout, hrecords⟩ := parts_eq_cycling_iff.1 h₀
  simp only [hlayout, hreadout, hrecords]
  have hread := alone_triple (ω := ω)
    (retried_triple (fun _ => .modify fun _ h => h)
      (readInto_keeps (β := β) (p := .cycling) rfl readout) fun _ _ h => h)
  refine .bind (hread.conseq (fun _ h => h ▸ h₀) (fun _ _ h => h) ?_) fun readout => ?_
  · rintro _ s ⟨hboard, -, hs⟩
    exact ⟨hboard, hs⟩
  -- Behind the read nothing fails.
  refine .bind (alone_triple (count_keeps _)) fun _ => .ite (fun _ => ?_) fun _ => ?_
  · exact .bind (alone_triple (count_keeps _)) fun _ => .pure _ fun _ h => h
  refine .bind (alone_triple (count_keeps _)) fun _ => ?_
  refine .bind (alone_triple (decodeInto_keeps rfl layout records _)) fun decoded => ?_
  cases decoded with
  | error e => exact .pure _ fun _ h => h
  | ok filled => exact store_keeps layout _ _ _ timestamp

/-- A cycle that lacks anything is refused and changes nothing. -/
theorem acquire_refused [DataWriter ω] (h : p ≠ .cycling) (timestamp : UInt64) :
    Triple (fun s : Session β × ω => s.1.parts = p) (acquire timestamp) (fun _ _ => False)
      fun e s => e = .state .acquire p.state ∧ s.1.parts = p := by
  have hrequire : Triple (fun s : Session β => s.parts = p) (require .acquire .acquiring)
      (fun _ s => p.state = .acquiring ∧ s.parts = p)
      fun e s => e = .state .acquire p.state ∧ s.parts = p := by
    refine (require_triple _ _).imp ?_ ?_
    · rintro _ s ⟨hstate, rfl⟩
      exact ⟨hstate, rfl⟩
    · rintro _ s ⟨he, -, rfl⟩
      exact ⟨he, rfl⟩
  refine .bind (alone_triple hrequire) fun _ => .lift fun hstate => .bind_get fun s₀ h₀ => ?_
  dsimp only
  split
  next layout readout records hparts =>
    simp only [Prod.mk.injEq] at hparts
    refine absurd (h₀ ▸ parts_eq_cycling_iff.2 ⟨?_, layout, readout, records, hparts⟩) h
    rw [← hstate, ← h₀, parts]
  · refine .throw _ ?_
    rintro s rfl
    exact ⟨by rw [← h₀, parts], h₀⟩

/-! ## The end -/

theorem stop_parts :
    Triple (fun s : Session β => s.parts = p) stop
      (fun _ s => p.state = .acquiring ∧ s.parts = { p with state := .ready })
      fun _ s => s.parts = p := by
  refine .bind (require_parts _ _) fun _ => .lift fun hstate => ?_
  refine .bind (retried_parts _) fun _ => .modify ?_
  rintro s rfl
  exact ⟨hstate, rfl⟩

/-- The readout buffer is given up before the board is asked to free it. -/
theorem release_parts :
    Triple (fun s : Session β => s.parts = p) release
      (fun _ s => s.parts = { p with readout := false })
      fun _ s => s.parts = { p with readout := false } := by
  refine .bind_get fun s₀ h₀ => ?_
  split
  · refine .bind_modify (once_parts _) ?_
    rintro s rfl
    rw [← h₀]
    rfl
  next hnone =>
    refine .pure _ ?_
    rintro s rfl
    have hreadout : s.readout = none := Option.eq_none_iff_forall_ne_some.2 fun r hr => hnone r hr
    rw [← h₀, parts, hreadout, Option.isSome_none]

/-- The buffers are gone when the board is asked to close, and stay away if it fails. -/
theorem giveUp_parts :
    Triple (fun s : Session β => s.parts = p) giveUp
      (fun _ s => s.parts = { p with state := .closed, readout := false, records := false })
      fun _ s => ∃ records, s.parts = { p with readout := false, records } := by
  have hrelease := release_parts (β := β) (p := p)
  refine .bind (hrelease.imp_error fun _ _ h => ⟨_, h⟩) fun _ => ?_
  have hclose := once_parts (p := { p with readout := false, records := false })
    (Board.close (β := β))
  refine .bind_modify (.bind (hclose.imp_error fun _ _ h => ⟨_, h⟩) fun _ =>
    .modify ?_) ?_
  · intro s hs
    show { s.parts with state := .closed } = _
    rw [hs]
  · intro s hs
    show { s.parts with records := false } = _
    rw [hs]

/-- Closing a closed session does nothing. Otherwise the session is closed and holds no buffer, or
the board has failed: in stopping, and nothing has changed, or later, and the session has stopped
and lost its readout buffer. -/
theorem close_parts :
    Triple (fun s : Session β => s.parts = p) close
      (fun _ s => s.parts = if p.state = .closed then p else
        { p with state := .closed, readout := false, records := false })
      fun _ s => p.state = .acquiring ∧ s.parts = p ∨
        p.state ≠ .closed ∧ ∃ records, s.parts = { p.stopped with readout := false, records } := by
  rw [close_eq]
  refine .bind_get fun s₀ h₀ => ?_
  have hstate : s₀.state = p.state := by rw [← h₀, parts]
  dsimp only
  rw [hstate]
  refine .ite (fun hclosed => .pure _ fun s hs => ?_) fun hopen =>
    .ite (fun hacq => ?_) fun hacq => ?_
  · rw [if_pos hclosed, hs, h₀]
  · rw [if_neg hopen]
    refine .bind (((stop_parts (p := p)).pre fun _ h => h ▸ h₀).imp (fun _ _ h => h.2) ?_)
      fun _ => giveUp_parts.imp ?_ ?_
    · exact fun _ _ h => .inl ⟨hacq, h⟩
    · exact fun _ _ h => h
    · exact fun _ _ h => .inr ⟨hopen, by rwa [SessionParts.stopped, if_pos hacq]⟩
  · rw [if_neg hopen]
    refine ((giveUp_parts (p := p)).pre fun _ h => h ▸ h₀).imp_error ?_
    exact fun _ _ h => .inr ⟨hopen, by rwa [SessionParts.stopped, if_neg hacq]⟩

end Session

end PulseDaq
