import PulseDaq.Proofs.Board.Flaky
import PulseDaq.Proofs.Board.Logged
import PulseDaq.Proofs.Session.Twins

/-!
# Sessions behind a flaky link

A session of a board behind a flaky link is the twin of a session of the board itself, unless it
gives up a request (`Session.GivesUp`): so the failures that its retries get over leave no trace but
in the time that it has waited. The log of the board itself tells how many requests there were.

* `FlakyBoard.InStep`: what holds between the boards of the twins.
* `Session.Relay`: a call with and without the link in between.
* `FlakyBoard.twins`: the twins.
-/

namespace PulseDaq

variable {α β : Type}

/-- Requests so far, each counted once. -/
def BoardLog.requests (log : BoardLog) : Nat :=
  log.countP fun e => e.1.method.isRequest

theorem BoardLog.requests_cons {c : BoardCall} (log : BoardLog) (r : Except BoardError Unit)
    (hc : c.method.isRequest = true) :
    BoardLog.requests ((c, r) :: log) = log.requests + 1 :=
  List.countP_cons_of_pos hc

theorem BoardLog.requests_cons_other {c : BoardCall} (log : BoardLog) (r : Except BoardError Unit)
    (hc : c.method.isRequest = false) : BoardLog.requests ((c, r) :: log) = log.requests :=
  List.countP_cons_of_neg (by simp [hc])

/-- A board behind a link, and the same board without it, with the log of what has got through since
the link was in `l₀`. -/
structure FlakyBoard.InStep (I : β → Prop) (l₀ : FlakyBoard β) (retries : UInt32)
    (o : SessionOptions) (l : FlakyBoard β × Duration) (b : LoggedBoard β × Duration) : Prop where
  policy : o.retry.retries = retries
  board : l.1.board = b.1.board
  quiet : I b.1.board
  served : Served retries.toNat l₀ b.1.log.requests l.1

namespace Session

/-- So many retries, and a board that is quiet. -/
structure Steady (I : β → Prop) (retries : UInt32) (s : Session (FlakyBoard β)) : Prop where
  policy : s.options.retry.retries = retries
  quiet : I s.board.board

/-- A request was given up with this error, the first one since the link was in `l₀`. -/
structure GivesUp (I : β → Prop) (l₀ : FlakyBoard β) (retries : UInt32) (e : SessionError)
    (s : Session (FlakyBoard β)) : Prop where
  steady : Steady I retries s
  error : ∃ b, e = .board b ∧ FlakyBoard.GivenUp retries l₀ b s.board

theorem Twins.steady {I : β → Prop} {l₀ : FlakyBoard β} {retries : UInt32}
    {s : Session (FlakyBoard β)} {t : Session (LoggedBoard β)}
    (h : Twins (FlakyBoard.InStep I l₀ retries) s t) : Steady I retries s := by
  obtain ⟨l, waited, hstep, -⟩ := h
  exact ⟨hstep.policy, hstep.board ▸ hstep.quiet⟩

/-! ## One request -/

/-- What gets through the link from a session `s` behind it, and from its twin `t`. -/
inductive Relayed (I : β → Prop) (s : Session (FlakyBoard β)) (t : Session (LoggedBoard β)) :
    EStateM.Result BoardError (Session (FlakyBoard β)) α →
      EStateM.Result BoardError (Session (LoggedBoard β)) α → Prop
  | ok (a : α) (b : LoggedBoard β) (readout : Option ReadoutBuffer) (h : I b.board)
    (hlog : b.log.requests = t.board.log.requests + 1) :
    Relayed I s t (.ok a { s with board := s.board.deliver b.board, readout := readout })
      (.ok a { t with board := b, readout := readout })
  | error (e : BoardError) (b : LoggedBoard β) (readout : Option ReadoutBuffer) (h : I b.board)
    (hlog : b.log.requests = t.board.log.requests + 1) (he : e.isTransient = false) :
    Relayed I s t (.error e { s with board := s.board.deliver b.board, readout := readout })
      (.error e { t with board := b, readout := readout })

section Relayed

variable {I : β → Prop} {s : Session (FlakyBoard β)} {t : Session (LoggedBoard β)}
  {x : EStateM.Result BoardError (Session (FlakyBoard β)) α}
  {y : EStateM.Result BoardError (Session (LoggedBoard β)) α}

theorem Relayed.settled (h : Relayed I s t x y) (e : BoardError) (s' : Session (FlakyBoard β))
    (hx : x = .error e s') : e.isTransient = false := by
  cases h with
  | ok a b readout h hlog => cases hx
  | error e b readout h hlog he =>
    cases hx
    exact he

theorem Relayed.settled_right (h : Relayed I s t x y) (e : BoardError)
    (t' : Session (LoggedBoard β)) (hy : y = .error e t') : e.isTransient = false := by
  cases h with
  | ok a b readout h hlog => cases hy
  | error e b readout h hlog he =>
    cases hy
    exact he

/-- What gets through leaves related states behind if it does so with every answer. -/
theorem Relayed.sameOutcome {R : Session (FlakyBoard β) → Session (LoggedBoard β) → Prop}
    {X : BoardError → Session (FlakyBoard β) → Prop} (h : Relayed I s t x y)
    (hR : ∀ b readout, I b.board → b.log.requests = t.board.log.requests + 1 →
      R { s with board := s.board.deliver b.board, readout := readout }
        { t with board := b, readout := readout }) : SameOutcome R X x y := by
  cases h with
  | ok a b readout h hlog => exact .ok a (hR b readout h hlog)
  | error e b readout h hlog he => exact .error e (hR b readout h hlog)

end Relayed

/-- The session after so many lost tries. A lost try of a read may leave the readout buffer where it
took it from, which is the same to it (`V`). -/
def Lost (V : Option ReadoutBuffer → Option ReadoutBuffer → Prop) (s : Session (FlakyBoard β))
    (count : Nat) (s' : Session (FlakyBoard β)) : Prop :=
  ∃ waited readout, V s.readout readout ∧
    s' = { s with board := s.board.lose count, waited := waited, readout := readout }

/-- A call `c` through the link, and the same call `d` without it. -/
structure Relay (I : β → Prop) (V : Option ReadoutBuffer → Option ReadoutBuffer → Prop)
    (c : EStateM BoardError (Session (FlakyBoard β)) α)
    (d : EStateM BoardError (Session (LoggedBoard β)) α) : Prop where
  equivalence : Equivalence V
  lost : ∀ s text, (s.board.plan 0).head? = some text → ∃ readout, V s.readout readout ∧
    c s = .error (.communication text) { s with board := s.board.lose 1, readout := readout }
  through : ∀ s (l : LoggedBoard β) waited readout, s.board.plan 0 = [] →
    s.board.board = l.board → I l.board → V readout s.readout →
    Relayed I s { s with board := l, waited := waited, readout := readout } (c s)
      (d { s with board := l, waited := waited, readout := readout })

variable {I : β → Prop} {V : Option ReadoutBuffer → Option ReadoutBuffer → Prop}
  {c : EStateM BoardError (Session (FlakyBoard β)) α}
  {d : EStateM BoardError (Session (LoggedBoard β)) α}

theorem Relay.losing (h : Relay I V c d) (s : Session (FlakyBoard β)) :
    RetryPolicy.Losing wait c (s.board.plan 0) (Lost V s) where
  lost := by
    rintro k text _ ⟨waited, readout, hV, rfl⟩ htext
    obtain ⟨readout', hV', hrun⟩ := h.lost
      { s with board := s.board.lose k, waited := waited, readout := readout } text
      (by rwa [FlakyBoard.lose_plan_zero, List.head?_drop])
    refine ⟨_, hrun, waited, readout', h.equivalence.trans hV hV', ?_⟩
    simp only [FlakyBoard.lose_lose]
  slept := by
    rintro k _ d ⟨waited, readout, hV, rfl⟩
    exact ⟨_, rfl, waited + d, readout, hV, rfl⟩

variable {l₀ : FlakyBoard β} {retries : UInt32}

/-- A call with its retries: either all of its failures pass, or it is given up. -/
theorem attempt_flaky (h : Relay I V c d) (p : RetryPolicy) (hp : p.retries = retries) :
    Simulates (Twins (FlakyBoard.InStep I l₀ retries)) (p.attempt wait c) (p.attempt wait d)
      fun b s => GivesUp I l₀ retries (.board b) s := by
  rintro s _ ⟨l, waited, ⟨hretries, hboard, hquiet, hserved⟩, rfl⟩
  have hstart : Lost V s 0 s := by
    refine ⟨s.waited, s.readout, h.equivalence.refl _, ?_⟩
    rw [FlakyBoard.lose_zero]
  unfold RetryPolicy.attempt
  by_cases hle : (s.board.plan 0).length ≤ p.retries.toNat
  · obtain ⟨s', delay, left, hlost, hrun⟩ := p.attemptFrom_through (h.losing s)
      p.initialDelay hstart (Nat.zero_le _) (by omega : _ ≤ 0 + p.retries.toNat)
    obtain ⟨waited', readout, hV, rfl⟩ := hlost
    let s' := { s with
      board := s.board.lose (s.board.plan 0).length
      waited := waited'
      readout := readout }
    have hrelayed : Relayed I s' { s with board := l, waited := waited } (c s')
        (d { s with board := l, waited := waited }) :=
      h.through s' l waited s.readout
        (by simp only [s', FlakyBoard.lose_plan_zero, List.drop_length]) hboard hquiet hV
    -- The failures are over: here the call is made once more, by the twin once at all.
    rw [hrun, p.attemptFrom_settled hrelayed.settled, p.attemptFrom_settled hrelayed.settled_right]
    refine hrelayed.sameOutcome fun b readout hb hlog => ?_
    refine ⟨b, waited, ⟨hretries, rfl, hb, ?_⟩, rfl⟩
    rw [hlog]
    exact hserved.next (hp ▸ hle) b.board
  · obtain ⟨text, htext⟩ : ∃ text, (s.board.plan 0)[p.retries.toNat]? = some text :=
      ⟨_, List.getElem?_eq_getElem (by omega)⟩
    obtain ⟨s', ⟨waited', readout, hV, rfl⟩, hrun⟩ := p.attemptFrom_exhausted (h.losing s)
      p.initialDelay hstart (by rwa [Nat.zero_add])
    rw [hrun]
    subst hp
    rw [Nat.zero_add]
    exact .excused _ ⟨⟨hretries, hboard ▸ hquiet⟩, _, rfl, hserved.givenUp htext⟩ _

theorem retried_flaky (h : Relay I V c d) :
    Simulates (Twins (FlakyBoard.InStep I l₀ retries)) (retried c) (retried d)
      (GivesUp I l₀ retries) := by
  refine .bind_get ?_
  rintro s _ ⟨_, waited, hstep, rfl⟩
  exact .adaptExcept (attempt_flaky h s.options.retry hstep.policy)

/-! ## Calls of the board -/

theorem call_relay {op : EStateM BoardError β α} (hop : Quiet I op) {bc : BoardCall}
    (hbc : bc.method.isRequest = true) :
    Relay I Eq (call (FlakyBoard.request op)) (call (LoggedBoard.note bc op)) where
  equivalence := ⟨fun _ => rfl, Eq.symm, Eq.trans⟩
  lost s text htext := by
    refine ⟨s.readout, rfl, ?_⟩
    simp only [call, FlakyBoard.request, htext]
  through := by
    rintro s l waited _ hplan hboard hI rfl
    have hleft := hop l.board hI
    simp only [call, FlakyBoard.request, LoggedBoard.note, hplan, List.head?_nil, hboard]
    cases hrun : op l.board with
    | ok a b =>
      rw [hrun] at hleft
      refine .ok a ⟨b, (bc, .ok ()) :: l.log⟩ s.readout hleft ?_
      exact BoardLog.requests_cons _ _ hbc
    | error e b =>
      rw [hrun] at hleft
      refine .error e ⟨b, (bc, .error e) :: l.log⟩ s.readout hleft.2 ?_ hleft.1
      exact BoardLog.requests_cons _ _ hbc

theorem readInto_relay [Board β]
    (hread : Quiet (fun b : β × ReadoutBuffer => I b.1) Board.read) (buffer : ReadoutBuffer) :
    Relay I (fun r r' => r.getD buffer = r'.getD buffer) (readInto buffer) (readInto buffer) where
  equivalence := ⟨fun _ => rfl, fun h => h.symm, fun h h' => h.trans h'⟩
  lost s text htext := by
    refine ⟨some (s.readout.getD buffer), rfl, ?_⟩
    simp only [readInto, Board.read, FlakyBoard.requestRead, htext]
  through := by
    intro s l waited readout hplan hboard hI hV
    have hleft := hread (l.board, s.readout.getD buffer) hI
    have hlink : Board.read (s.board, s.readout.getD buffer) =
        FlakyBoard.requestRead Board.read (s.board, s.readout.getD buffer) := rfl
    have hlog : Board.read (l, s.readout.getD buffer) =
        LoggedBoard.noteRead Board.read (l, s.readout.getD buffer) := rfl
    simp only [readInto, hlink, hlog, FlakyBoard.requestRead, LoggedBoard.noteRead, hplan,
      List.head?_nil, hV, hboard]
    cases hrun : Board.read (l.board, s.readout.getD buffer) with
    | ok _ b =>
      rw [hrun] at hleft
      refine .ok b.2 ⟨b.1, (.read, .ok ()) :: l.log⟩ (some b.2) hleft ?_
      exact BoardLog.requests_cons _ _ rfl
    | error e b =>
      rw [hrun] at hleft
      refine .error e ⟨b.1, (.read, .error e) :: l.log⟩ (some b.2) hleft.2 ?_ hleft.1
      exact BoardLog.requests_cons _ _ rfl

theorem once_flaky {op : EStateM BoardError β α} (hop : Preserves I op) {bc : BoardCall}
    (hbc : bc.method.isRequest = false) :
    Simulates (Twins (FlakyBoard.InStep I l₀ retries)) (once (call (FlakyBoard.pass op)))
      (once (call (LoggedBoard.note bc op))) (GivesUp I l₀ retries) := by
  refine .adaptExcept ?_
  rintro s _ ⟨l, waited, ⟨hretries, hboard, hquiet, hserved⟩, rfl⟩
  have hleft := hop l.board hquiet
  have hsame (r : Except BoardError Unit) (b : β) : FlakyBoard.Served retries.toNat l₀
      (BoardLog.requests ((bc, r) :: l.log)) { s.board with board := b } := by
    rw [BoardLog.requests_cons_other _ _ hbc]
    exact hserved.pass b
  replace hboard : s.board.board = l.board := hboard
  simp only [call, FlakyBoard.pass, LoggedBoard.note, hboard]
  cases hrun : op l.board with
  | ok a b =>
    rw [hrun] at hleft
    exact .ok a ⟨_, waited, ⟨hretries, rfl, hleft, hsame _ b⟩, rfl⟩
  | error e b =>
    rw [hrun] at hleft
    exact .error e ⟨_, waited, ⟨hretries, rfl, hleft, hsame _ b⟩, rfl⟩

end Session

/-- What is made of an answer is none of the log's business. -/
theorem LoggedBoard.note_map {γ : Type} (bc : BoardCall) (c : EStateM BoardError β α) (k : α → γ) :
    (do return k (← note bc c)) = note bc (do return k (← c)) := by
  funext l
  simp only [note, Bind.bind, EStateM.bind]
  cases c l.board <;> rfl

/-- A quiet board behind a flaky link is the twin of the board with a log. -/
theorem FlakyBoard.twins [Board β] {I : β → Prop} (hI : QuietBoard I) (l₀ : FlakyBoard β)
    (retries : UInt32) : TwinBoards (FlakyBoard β) (LoggedBoard β)
      (FlakyBoard.InStep I l₀ retries) (Session.GivesUp I l₀ retries) where
  firmware h := congrArg Board.firmware h.board
  wait more h := ⟨h.policy, h.board, h.quiet, h.served⟩
  get f index k := by
    show Simulates _ (Session.retried (Session.call do return k (← request (Board.get f index))))
      (Session.retried (Session.call do
        return k (← LoggedBoard.note (.get f index) (Board.get f index)))) _
    rw [request_map, LoggedBoard.note_map]
    refine Session.retried_flaky (Session.call_relay ?_ rfl)
    exact Triple.bind (hI.get f index) fun v => .pure _ fun _ h => h
  set f index value := Session.retried_flaky (Session.call_relay (hI.set f index value) rfl)
  allocate := Session.once_flaky hI.allocate rfl
  read buffer := Session.retried_flaky (Session.readInto_relay hI.read buffer)
  free buffer := Session.once_flaky (hI.free buffer) rfl
  start := Session.once_flaky hI.start rfl
  stop := Session.retried_flaky (Session.call_relay hI.stop rfl)
  close := Session.once_flaky hI.close rfl

end PulseDaq
