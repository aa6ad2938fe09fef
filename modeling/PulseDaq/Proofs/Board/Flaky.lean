import PulseDaq.Board.Scripted
import PulseDaq.Proofs.Board.Retry

/-!
# Boards behind a flaky link

`FlakyBoard β` is the board `β` behind a link that is down now and then. What a session tries again
is a request: to read or write a value, to read out, or to stop. A plan says which communication
errors stand in the way of each request to come; until they are over, the board hears nothing of it.

* `Quiet`, `QuietBoard`: no communication errors of the board's own. A scripted board has none if
  none is planned (`ScriptedBoard.quiet`).
* `RetryPolicy.attemptFrom_through`, `RetryPolicy.attemptFrom_exhausted`: retries of a call that is
  lost so many times.
* `FlakyBoard.Served`: the link after requests that got through.
* `FlakyBoard.GivenUp`: the link after a request that did not.
-/

namespace PulseDaq

variable {σ α β : Type}

/-- Calls of the method are requests. -/
def BoardMethod.isRequest : BoardMethod → Bool
  | get | set | read | stop => true
  | _ => false

/-! ## Quiet boards -/

/-- The call keeps `I` and does not fail transiently. -/
def Quiet (I : σ → Prop) (c : EStateM BoardError σ α) : Prop :=
  Triple I c (fun _ => I) fun e s => e.isTransient = false ∧ I s

/-- A board of which `I` stays true, and whose requests do not fail transiently as long as it is. -/
structure QuietBoard [Board β] (I : β → Prop) : Prop where
  get : ∀ f index, Quiet I (Board.get (β := β) f index)
  set : ∀ f index value, Quiet I (Board.set (β := β) f index value)
  read : Quiet (fun b : β × ReadoutBuffer => I b.1) Board.read
  stop : Quiet I (Board.stop (β := β))
  allocate : Preserves I (Board.allocate (β := β))
  free : ∀ buffer, Preserves I (Board.free (β := β) buffer)
  start : Preserves I (Board.start (β := β))
  close : Preserves I (Board.close (β := β))

namespace ScriptedBoard

/-- No request is to fail transiently. -/
def Honest (b : ScriptedBoard) : Prop :=
  ∀ m, m.isRequest = true → ∀ e, some e ∈ b.failures m → e.isTransient = false

theorem note_honest (call : BoardCall) :
    Triple Honest (note call) (fun _ => Honest) fun e b =>
      (call.method.isRequest = true → e.isTransient = false) ∧ b.Honest := by
  intro b hb
  let left : ScriptedBoard := { b with
    calls := call :: b.calls
    failures := fun m => if m = call.method then (b.failures call.method).tail
      else b.failures m }
  have hleft : left.Honest := by
    intro m hm e he
    dsimp only [left] at he
    split at he
    next h => exact hb m hm e (h ▸ List.mem_of_mem_tail he)
    · exact hb m hm e he
  have hset : (set left : EStateM BoardError ScriptedBoard Unit) b = .ok () left := rfl
  rw [show note call b = _ from (bind_of_ok rfl).trans (bind_of_ok hset)]
  cases hhead : (b.failures call.method).head? with
  | none => exact hleft
  | some planned =>
    cases planned with
    | none => exact hleft
    | some e => exact ⟨fun hm => hb _ hm e (List.mem_of_head? hhead), hleft⟩

theorem note_quiet (call : BoardCall) (hcall : call.method.isRequest = true) :
    Quiet Honest (note call) :=
  (note_honest call).imp_error fun _ _ h => ⟨h.1 hcall, h.2⟩

theorem note_preserves (call : BoardCall) : Preserves Honest (note call) :=
  (note_honest call).imp_error fun _ _ h => h.2

/-- An honest scripted board is quiet. -/
theorem quiet : QuietBoard Honest where
  get f index := by
    refine Triple.bind (note_quiet (.get f index) rfl) fun _ => ?_
    refine .bind_get fun b hb => .ite (fun _ => ?_) fun _ => .pure _ ?_
    · rintro _ rfl
      exact hb
    · rintro _ rfl
      exact hb
  set f index value :=
    Triple.bind (note_quiet (.set f index value) rfl) fun _ =>
      .modify fun _ hb => hb
  read := by
    rintro ⟨b, buffer⟩ hb
    have hnote := note_quiet .read rfl b hb
    simp only [Board.read, readInto]
    cases hrun : note .read b with
    | error e b' =>
      rw [hrun] at hnote
      exact hnote
    | ok _ b' =>
      rw [hrun] at hnote
      dsimp only
      cases b'.readouts with
      | nil => exact hnote
      | cons bytes _ =>
        dsimp only [ReadoutBuffer.fill]
        by_cases hover : buffer.capacity < bytes.length
        · rw [if_pos hover]
          exact ⟨rfl, hnote⟩
        · rw [if_neg hover]
          exact hnote
  stop := note_quiet .stop rfl
  allocate := Preserves.bind (note_preserves .allocate) fun _ => .bind_get fun _ => .pure _
  free buffer := note_preserves (.free buffer.capacity)
  start := note_preserves .start
  close := note_preserves .close

end ScriptedBoard

/-! ## Retries -/

namespace RetryPolicy

variable {sleep : Duration → EStateM BoardError σ Unit} {c : EStateM BoardError σ α}
  {s : σ}

/-- After `k` of the failures, with some sleep in between, the state has `S k`. -/
structure Losing (sleep : Duration → EStateM BoardError σ Unit) (c : EStateM BoardError σ α)
    (failures : List String) (S : Nat → σ → Prop) : Prop where
  lost : ∀ {k text s}, S k s → failures[k]? = some text →
    ∃ s', c s = .error (.communication text) s' ∧ S (k + 1) s'
  slept : ∀ {k s} (d : Duration), S k s → ∃ s', sleep d s = .ok () s' ∧ S k s'

variable {failures : List String} {S : Nat → σ → Prop} {k : Nat}

/-- Enough retries: all failures pass, and the call is made once more. -/
theorem attemptFrom_through (p : RetryPolicy) (h : Losing sleep c failures S) (delay : Duration)
    {left : Nat} (hs : S k s) (hk : k ≤ failures.length) (hleft : failures.length ≤ k + left) :
    ∃ s' delay' left', S failures.length s' ∧
      p.attemptFrom sleep c delay left s = p.attemptFrom sleep c delay' left' s' := by
  induction left generalizing k delay s with
  | zero =>
    obtain rfl : k = failures.length := by omega
    exact ⟨s, delay, 0, hs, rfl⟩
  | succ left ih =>
    by_cases hend : k = failures.length
    · subst hend
      exact ⟨s, delay, left + 1, hs, rfl⟩
    · have hlt : k < failures.length := by omega
      obtain ⟨s₁, hrun, hs₁⟩ := h.lost hs (List.getElem?_eq_getElem hlt)
      obtain ⟨s₂, hslept, hs₂⟩ := h.slept delay hs₁
      rw [p.attemptFrom_lost_once hrun hslept]
      exact ih _ hs₂ (by omega) (by omega)

/-- Too few retries: the call is given up, with the failure of its last try. -/
theorem attemptFrom_exhausted (p : RetryPolicy) (h : Losing sleep c failures S)
    (delay : Duration) {left : Nat} {text : String} (hs : S k s)
    (htext : failures[k + left]? = some text) :
    ∃ s', S (k + left + 1) s' ∧ p.attemptFrom sleep c delay left s =
      .error (.exhausted p.retries (.communication text)) s' := by
  induction left generalizing k delay s with
  | zero =>
    obtain ⟨s₁, hrun, hs₁⟩ := h.lost hs htext
    refine ⟨s₁, hs₁, ?_⟩
    simp only [attemptFrom, hrun, BoardError.isTransient, if_true]
  | succ left ih =>
    have hlt : k < failures.length := by
      obtain ⟨hlt, -⟩ := List.getElem?_eq_some_iff.1 htext
      omega
    obtain ⟨s₁, hrun, hs₁⟩ := h.lost hs (List.getElem?_eq_getElem hlt)
    obtain ⟨s₂, hslept, hs₂⟩ := h.slept delay hs₁
    have hnext : k + (left + 1) = k + 1 + left := by omega
    rw [p.attemptFrom_lost_once hrun hslept, hnext]
    exact ih _ hs₂ (hnext ▸ htext)

end RetryPolicy

/-! ## The link -/

/-- A board behind a link. -/
structure FlakyBoard (β : Type) where
  board : β
  /-- The communication errors in the way of each request to come. -/
  plan : Nat → List String := fun _ => []
  /-- How often something has been requested so far, in vain or not. -/
  attempts : Nat := 0

namespace FlakyBoard

/-- So many tries of the next request are over, in vain. -/
def lose (l : FlakyBoard β) (count : Nat) : FlakyBoard β :=
  { l with
    plan := fun i => if i = 0 then (l.plan 0).drop count else l.plan i
    attempts := l.attempts + count }

/-- The next request has got through and has left this board behind. -/
def deliver (l : FlakyBoard β) (board : β) : FlakyBoard β where
  board := board
  plan := fun i => l.plan (i + 1)
  attempts := l.attempts + 1

/-- A request. -/
def request (c : EStateM BoardError β α) : EStateM BoardError (FlakyBoard β) α := fun l =>
  match (l.plan 0).head? with
  | some text => .error (.communication text) (l.lose 1)
  | none =>
    match c l.board with
    | .ok a board => .ok a (l.deliver board)
    | .error e board => .error e (l.deliver board)

/-- A request to fill a buffer, which stays as it is as long as nothing gets through. -/
def requestRead (c : EStateM BoardError (β × ReadoutBuffer) Unit) :
    EStateM BoardError (FlakyBoard β × ReadoutBuffer) Unit := fun (l, buffer) =>
  match (l.plan 0).head? with
  | some text => .error (.communication text) (l.lose 1, buffer)
  | none =>
    match c (l.board, buffer) with
    | .ok _ (board, buffer) => .ok () (l.deliver board, buffer)
    | .error e (board, buffer) => .error e (l.deliver board, buffer)

/-- A call that the link leaves alone. -/
def pass (c : EStateM BoardError β α) : EStateM BoardError (FlakyBoard β) α := fun l =>
  match c l.board with
  | .ok a board => .ok a { l with board }
  | .error e board => .error e { l with board }

instance [Board β] : Board (FlakyBoard β) where
  serial l := Board.serial l.board
  firmware l := Board.firmware l.board
  get f index := request (Board.get f index)
  set f index value := request (Board.set f index value)
  allocate := pass Board.allocate
  read := requestRead Board.read
  free buffer := pass (Board.free buffer)
  start := pass Board.start
  stop := request Board.stop
  close := pass Board.close

theorem lose_plan_zero (l : FlakyBoard β) (count : Nat) :
    (l.lose count).plan 0 = (l.plan 0).drop count :=
  rfl

theorem lose_zero (l : FlakyBoard β) : l.lose 0 = l := by
  have hplan : (fun i => if i = 0 then (l.plan 0).drop 0 else l.plan i) = l.plan := by
    funext i
    split
    next h => rw [h, List.drop_zero]
    · rfl
  rw [lose, hplan]
  rfl

theorem lose_lose (l : FlakyBoard β) (m n : Nat) : (l.lose m).lose n = l.lose (m + n) := by
  have hplan : (fun i => if i = 0 then ((l.lose m).plan 0).drop n else (l.lose m).plan i) =
      fun i => if i = 0 then (l.plan 0).drop (m + n) else l.plan i := by
    funext i
    split
    · rw [lose_plan_zero, List.drop_drop]
    next h => exact if_neg h
  rw [lose, hplan, lose, lose, Nat.add_assoc]

/-- What is made of an answer is none of the link's business. -/
theorem request_map {γ : Type} (c : EStateM BoardError β α) (k : α → γ) :
    (do return k (← request c)) = request (do return k (← c)) := by
  funext l
  simp only [request, Bind.bind, EStateM.bind]
  cases (l.plan 0).head? with
  | some text => rfl
  | none => cases c l.board <;> rfl

/-! ## Requests that got through, or did not -/

/-- The tries of the first `n` requests of a plan if all of them get through. -/
def attemptsOf (plan : Nat → List String) : Nat → Nat
  | 0 => 0
  | n + 1 => attemptsOf plan n + (plan n).length + 1

/-- Since the link was as in `l₀`, `n` requests got through, none with more failures than
retries. -/
structure Served (retries : Nat) (l₀ : FlakyBoard β) (n : Nat) (l : FlakyBoard β) : Prop where
  within : ∀ i < n, (l₀.plan i).length ≤ retries
  plan : l.plan = fun i => l₀.plan (n + i)
  attempts : l.attempts = l₀.attempts + attemptsOf l₀.plan n

/-- Since the link was as in `l₀`, some requests got through, and the next one had more failures
than retries. It was tried once and then retried so often; its last failure is in the error. -/
def GivenUp (retries : UInt32) (l₀ : FlakyBoard β) (e : BoardError) (l : FlakyBoard β) : Prop :=
  ∃ k text, (∀ i < k, (l₀.plan i).length ≤ retries.toNat) ∧
    (l₀.plan k)[retries.toNat]? = some text ∧ e = .exhausted retries (.communication text) ∧
    l.attempts = l₀.attempts + attemptsOf l₀.plan k + (retries.toNat + 1)

variable {retries n : Nat} {l₀ l : FlakyBoard β}

theorem Served.refl (retries : Nat) (l : FlakyBoard β) : Served retries l 0 l where
  within := nofun
  plan := by simp only [Nat.zero_add]
  attempts := rfl

/-- The board may change. -/
theorem Served.pass (h : Served retries l₀ n l) (board : β) :
    Served retries l₀ n { l with board } where
  within := h.within
  plan := h.plan
  attempts := h.attempts

/-- One more request gets through. -/
theorem Served.next (h : Served retries l₀ n l) (hlen : (l.plan 0).length ≤ retries) (board : β) :
    Served retries l₀ (n + 1) ((l.lose (l.plan 0).length).deliver board) := by
  have hplan (i : Nat) : l.plan i = l₀.plan (n + i) := congrFun h.plan i
  have hnext : l.plan 0 = l₀.plan n := hplan 0
  refine ⟨fun i hi => ?_, ?_, ?_⟩
  · by_cases hn : i = n
    · rwa [hn, ← hnext]
    · exact h.within i (by omega)
  · funext i
    show l.plan (i + 1) = l₀.plan (n + 1 + i)
    rw [hplan, Nat.add_assoc, Nat.add_comm 1 i]
  · show l.attempts + (l.plan 0).length + 1 = _
    rw [h.attempts, hnext, attemptsOf]
    omega

/-- One more request is given up. -/
theorem Served.givenUp {retries : UInt32} (h : Served retries.toNat l₀ n l) {text : String}
    (htext : (l.plan 0)[retries.toNat]? = some text) :
    GivenUp retries l₀ (.exhausted retries (.communication text))
      (l.lose (retries.toNat + 1)) := by
  refine ⟨n, text, h.within, ?_, rfl, ?_⟩
  · rwa [h.plan] at htext
  · show l.attempts + (retries.toNat + 1) = _
    rw [h.attempts]

/-- A plan that keeps within the retries has no request given up. -/
theorem GivenUp.exceeds {retries : UInt32} {e : BoardError} (h : GivenUp retries l₀ e l) :
    ∃ k, retries.toNat < (l₀.plan k).length := by
  obtain ⟨k, text, -, htext, -, -⟩ := h
  exact ⟨k, (List.getElem?_eq_some_iff.1 htext).1⟩

end FlakyBoard

end PulseDaq
