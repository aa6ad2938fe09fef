import Mathlib.Algebra.Order.Ring.Nat
import PulseDaq.Board.Retry
import PulseDaq.Proofs.Triple

/-!
# Retries counted

How often a call is tried, how long the pauses between the tries are, and what comes of it.

* `Duration.scale_scale`: scaling in steps comes to scaling at once, also if the longest duration is
  reached on the way.
* `RetryPolicy.getElem_delaysFrom`, `RetryPolicy.pairwise_delaysFrom`: the pauses in closed form,
  and that they do not get shorter.
* `RetryPolicy.attemptFrom_settled`, `RetryPolicy.attemptFrom_lost_once`: one try of any call.
* `Tape`: a call whose outcomes are given in advance, with what has been done so far.
* `RetryPolicy.attempt_outcomes`: the main result.
-/

namespace PulseDaq

/-! ## Pauses -/

namespace Duration

theorem ext {d e : Duration} (h : d.nanoseconds = e.nanoseconds) : d = e := by
  cases d
  cases e
  cases h
  rfl

theorem nanoseconds_scale (d : Duration) (n : Nat) :
    (d.scale n).nanoseconds = min (d.nanoseconds * n) max.nanoseconds :=
  rfl

theorem nanoseconds_le_max (d : Duration) : d.nanoseconds ≤ max.nanoseconds :=
  Nat.le_sub_one_of_lt d.lt_limit

theorem scale_one (d : Duration) : d.scale 1 = d := by
  apply ext
  rw [nanoseconds_scale, Nat.mul_one, Nat.min_eq_left d.nanoseconds_le_max]

/-- A duration that is too long to be scaled further stays the longest one, unless it is scaled to
nothing. -/
theorem scale_scale (d : Duration) (m n : Nat) : (d.scale m).scale n = d.scale (m * n) := by
  apply ext
  simp only [nanoseconds_scale, ← Nat.mul_assoc]
  rcases Nat.le_total (d.nanoseconds * m) max.nanoseconds with hle | hge
  · rw [Nat.min_eq_left hle]
  · rw [Nat.min_eq_right hge]
    rcases Nat.eq_zero_or_pos n with rfl | hpos
    · simp only [Nat.mul_zero]
    · have hlong : max.nanoseconds ≤ max.nanoseconds * n := Nat.le_mul_of_pos_right _ hpos
      rw [Nat.min_eq_right hlong, Nat.min_eq_right (hlong.trans (Nat.mul_le_mul_right n hge))]

theorem scale_mono (d : Duration) {m n : Nat} (h : m ≤ n) :
    (d.scale m).nanoseconds ≤ (d.scale n).nanoseconds := by
  have hmul : d.nanoseconds * m ≤ d.nanoseconds * n := Nat.mul_le_mul_left _ h
  simp only [nanoseconds_scale]
  omega

end Duration

namespace RetryPolicy

theorem length_delaysFrom (p : RetryPolicy) (d : Duration) (count : Nat) :
    (p.delaysFrom d count).length = count := by
  induction count generalizing d with
  | zero => rfl
  | succ count ih => rw [delaysFrom, List.length_cons, ih]

/-- A pause is the first one times as many factors as there are pauses before it. -/
theorem getElem_delaysFrom (p : RetryPolicy) (d : Duration) {count i : Nat}
    (h : i < (p.delaysFrom d count).length) :
    (p.delaysFrom d count)[i] = d.scale (p.factor.toNat ^ i) := by
  induction count generalizing d i with
  | zero => exact absurd h (Nat.not_lt_zero _)
  | succ count ih =>
    cases i with
    | zero => exact (d.scale_one).symm
    | succ i =>
      have hi : i < (p.delaysFrom (p.nextDelay d) count).length := Nat.lt_of_succ_lt_succ h
      calc (p.delaysFrom d (count + 1))[i + 1]
          = (p.delaysFrom (p.nextDelay d) count)[i] := rfl
        _ = (d.scale p.factor.toNat).scale (p.factor.toNat ^ i) := ih _ _
        _ = d.scale (p.factor.toNat ^ (i + 1)) := by rw [Duration.scale_scale, pow_succ']

/-- Pauses do not get shorter, unless they are scaled to nothing. -/
theorem pairwise_delaysFrom (p : RetryPolicy) (d : Duration) (count : Nat)
    (h : 1 ≤ p.factor.toNat) :
    (p.delaysFrom d count).Pairwise fun a b => a.nanoseconds ≤ b.nanoseconds := by
  rw [List.pairwise_iff_getElem]
  intro i j hi hj hij
  rw [getElem_delaysFrom, getElem_delaysFrom]
  exact d.scale_mono (Nat.pow_le_pow_right h hij.le)

/-! ## One try -/

variable {σ α : Type} {sleep : Duration → EStateM BoardError σ Unit} {c : EStateM BoardError σ α}
  {delay : Duration} {s s' s'' : σ}

/-- A call that answers, or fails for good, is not repeated. -/
theorem attemptFrom_settled (p : RetryPolicy)
    (h : ∀ e s', c s = .error e s' → e.isTransient = false) (left : Nat) :
    p.attemptFrom sleep c delay left s = c s := by
  cases hrun : c s with
  | ok a s' => cases left <;> simp only [attemptFrom, hrun]
  | error e s' =>
    have he := h e s' hrun
    cases left <;> simp only [attemptFrom, hrun, he, Bool.false_eq_true, if_false]

theorem attemptFrom_lost_once (p : RetryPolicy) {text : String}
    (hc : c s = .error (.communication text) s') (hsleep : sleep delay s' = .ok () s'')
    (left : Nat) : p.attemptFrom sleep c delay (left + 1) s =
      p.attemptFrom sleep c (p.nextDelay delay) left s'' := by
  simp only [attemptFrom, hc, BoardError.isTransient, if_true]
  exact bind_of_ok hsleep

end RetryPolicy

/-! ## Outcomes given in advance -/

/-- A call with the outcomes that it has one after the other, and what has been done so far. -/
structure Tape (α : Type) where
  outcomes : Nat → Except BoardError α
  /-- How often the call has been made. -/
  calls : Nat := 0
  /-- The pauses that have been made, in order. -/
  slept : List Duration := []

namespace Tape

variable {α : Type}

/-- An outcome as the result of a run that has left the tape behind. -/
def settle (t : Tape α) : Except BoardError α → EStateM.Result BoardError (Tape α) α
  | .ok a => .ok a t
  | .error e => .error e t

/-- The next outcome. -/
def call : EStateM BoardError (Tape α) α := fun t =>
  settle { t with calls := t.calls + 1 } (t.outcomes t.calls)

def sleep (d : Duration) : EStateM BoardError (Tape α) Unit :=
  modify fun t => { t with slept := t.slept ++ [d] }

theorem eq_error_of_settle {t t' : Tape α} {outcome : Except BoardError α} {e : BoardError}
    (h : t.settle outcome = .error e t') : outcome = .error e := by
  cases outcome with
  | ok a => cases h
  | error e' =>
    cases h
    rfl

end Tape

/-- The call was lost on the link. -/
def Lost {α : Type} (outcome : Except BoardError α) : Prop :=
  ∃ text, outcome = .error (.communication text)

/-- Outcome number `j` is the first one that is not a communication error. -/
structure FirstSettled {α : Type} (outcomes : Nat → Except BoardError α) (j : Nat) : Prop where
  settled : ¬Lost (outcomes j)
  lost : ∀ i < j, Lost (outcomes i)

theorem lost_of_isTransient {α : Type} {e : BoardError} (h : e.isTransient = true) :
    Lost (.error e : Except BoardError α) := by
  cases e with
  | communication text => exact ⟨text, rfl⟩
  | _ => cases h

/-- Either one of the first outcomes is the first to be settled, or all of them are lost. -/
theorem exists_firstSettled_or_lost {α : Type} (outcomes : Nat → Except BoardError α)
    (count : Nat) :
    (∃ j < count, FirstSettled outcomes j) ∨ ∀ i < count, Lost (outcomes i) := by
  induction count with
  | zero => exact .inr fun _ hi => absurd hi (Nat.not_lt_zero _)
  | succ count ih =>
    obtain ⟨j, hj, hfirst⟩ | hlost := ih
    · exact .inl ⟨j, hj.trans count.lt_succ_self, hfirst⟩
    · by_cases h : Lost (outcomes count)
      · refine .inr fun i hi => ?_
        rcases Nat.lt_succ_iff_lt_or_eq.1 hi with hlt | rfl
        · exact hlost i hlt
        · exact h
      · exact .inl ⟨count, count.lt_succ_self, h, hlost⟩

namespace RetryPolicy

variable {α : Type}

/-- There have been so many pauses, and one call more. -/
structure Paused (p : RetryPolicy) (pauses : Nat) (t : Tape α) : Prop where
  calls : t.calls = pauses + 1
  sleeps : t.slept.length = pauses
  /-- The pauses are the first delays of the policy. -/
  announced : t.slept = p.delays pauses
  delay : ∀ i (h : i < t.slept.length), t.slept[i].nanoseconds =
    min (p.initialDelay.nanoseconds * p.factor.toNat ^ i) Duration.max.nanoseconds
  patient : 1 ≤ p.factor.toNat → t.slept.Pairwise fun d e => d.nanoseconds ≤ e.nanoseconds

/-- The tape behind so many lost calls, each with its pause. -/
def behind (p : RetryPolicy) (outcomes : Nat → Except BoardError α) (pauses : Nat) : Tape α where
  outcomes := outcomes
  calls := pauses
  slept := p.delaysFrom p.initialDelay pauses

/-- The tape behind the call that follows them. -/
def tried (p : RetryPolicy) (outcomes : Nat → Except BoardError α) (pauses : Nat) : Tape α :=
  { p.behind outcomes pauses with calls := pauses + 1 }

theorem call_behind (p : RetryPolicy) (outcomes : Nat → Except BoardError α) (pauses : Nat) :
    Tape.call (p.behind outcomes pauses) = (p.tried outcomes pauses).settle (outcomes pauses) :=
  rfl

theorem paused_tried (p : RetryPolicy) (outcomes : Nat → Except BoardError α) {pauses : Nat}
    (h : pauses ≤ p.retries.toNat) : p.Paused pauses (p.tried outcomes pauses) where
  calls := rfl
  sleeps := p.length_delaysFrom _ _
  announced := by rw [delays, Nat.min_eq_left h]; rfl
  delay _ hi := congrArg Duration.nanoseconds (p.getElem_delaysFrom p.initialDelay hi)
  patient hfactor := p.pairwise_delaysFrom _ _ hfactor

/-- As long as the call is lost, it is made again after the next pause. -/
theorem attemptFrom_lost (p : RetryPolicy) (t : Tape α) (delay : Duration) {count : Nat}
    (h : ∀ i < count, Lost (t.outcomes (t.calls + i))) (left : Nat) :
    ∃ delay', p.attemptFrom Tape.sleep Tape.call delay (count + left) t =
      p.attemptFrom Tape.sleep Tape.call delay' left
        { t with calls := t.calls + count, slept := t.slept ++ p.delaysFrom delay count } := by
  induction count generalizing t delay with
  | zero => exact ⟨delay, by rw [Nat.zero_add, delaysFrom, List.append_nil, Nat.add_zero]⟩
  | succ count ih =>
    obtain ⟨text, htext⟩ : Lost (t.outcomes t.calls) := h 0 count.succ_pos
    have hcall : Tape.call t = .error (.communication text) { t with calls := t.calls + 1 } := by
      rw [Tape.call, htext, Tape.settle]
    have hrest : ∀ i < count, Lost (t.outcomes (t.calls + 1 + i)) := by
      intro i hi
      rw [Nat.add_assoc, Nat.add_comm 1]
      exact h (i + 1) (Nat.succ_lt_succ hi)
    obtain ⟨delay', hrun⟩ := ih { t with calls := t.calls + 1, slept := t.slept ++ [delay] }
      (p.nextDelay delay) hrest
    refine ⟨delay', ?_⟩
    rw [Nat.succ_add, p.attemptFrom_lost_once hcall rfl, hrun, delaysFrom, List.append_assoc,
      List.singleton_append, Nat.add_assoc, Nat.add_comm 1 count]

/-- If the first calls are lost, the attempt goes on behind them with the retries that are left. -/
theorem attempt_lost (p : RetryPolicy) {outcomes : Nat → Except BoardError α} {count : Nat}
    (h : ∀ i < count, Lost (outcomes i)) {left : Nat} (hleft : p.retries.toNat = count + left) :
    ∃ delay, p.attempt Tape.sleep Tape.call { outcomes } =
      p.attemptFrom Tape.sleep Tape.call delay left (p.behind outcomes count) := by
  obtain ⟨delay, hrun⟩ := p.attemptFrom_lost { outcomes } p.initialDelay
    (fun i hi => (Nat.zero_add i).symm ▸ h i hi) left
  refine ⟨delay, ?_⟩
  rw [attempt, hleft, hrun, behind, List.nil_append, Nat.zero_add]

/-- **Retries.** A call is made until one of its outcomes is not a communication error, which is
what the attempt comes to. If there is none before the retries are used up, the attempt is given up
with the last error. There is one call more than there are pauses, and each pause is the first one
times as many factors as there were pauses before it, or the longest duration. -/
theorem attempt_outcomes (p : RetryPolicy) (outcomes : Nat → Except BoardError α) :
    (∀ j, FirstSettled outcomes j → j ≤ p.retries.toNat →
      ∃ t, p.attempt Tape.sleep Tape.call { outcomes } = t.settle (outcomes j) ∧ p.Paused j t) ∧
    ((∀ j, FirstSettled outcomes j → p.retries.toNat < j) →
      ∃ t e, outcomes p.retries.toNat = .error e ∧ e.isTransient = true ∧
        p.attempt Tape.sleep Tape.call { outcomes } = .error (.exhausted p.retries e) t ∧
        p.Paused p.retries.toNat t) := by
  constructor
  · intro j hj hle
    obtain ⟨left, hleft⟩ := Nat.exists_eq_add_of_le hle
    obtain ⟨delay, hrun⟩ := p.attempt_lost hj.lost hleft
    refine ⟨p.tried outcomes j, ?_, p.paused_tried outcomes hle⟩
    rw [hrun, attemptFrom_settled, call_behind]
    intro e t he
    have houtcome : outcomes j = .error e := Tape.eq_error_of_settle he
    refine Bool.eq_false_iff.2 fun htransient => hj.settled ?_
    rw [houtcome]
    exact lost_of_isTransient htransient
  · intro hnone
    have hlost : ∀ i < p.retries.toNat + 1, Lost (outcomes i) := by
      obtain ⟨j, hj, hfirst⟩ | hlost := exists_firstSettled_or_lost outcomes (p.retries.toNat + 1)
      · exact absurd (hnone j hfirst) (Nat.not_lt.2 (Nat.le_of_lt_succ hj))
      · exact hlost
    obtain ⟨text, htext⟩ := hlost _ (Nat.lt_succ_self _)
    have hbefore : ∀ i < p.retries.toNat, Lost (outcomes i) :=
      fun i hi => hlost i (hi.trans (Nat.lt_succ_self _))
    obtain ⟨delay, hrun⟩ := p.attempt_lost hbefore (Nat.add_zero _).symm
    have hcall : Tape.call (p.behind outcomes p.retries.toNat) =
        .error (.communication text) (p.tried outcomes p.retries.toNat) := by
      rw [call_behind, htext, Tape.settle]
    refine ⟨_, _, htext, rfl, ?_, p.paused_tried outcomes (Nat.le_refl _)⟩
    simp only [hrun, attemptFrom, hcall, BoardError.isTransient, if_true]

/-- The last retry may still bring an answer, and the pauses may become too long to be measured. -/
theorem attempt_outcomes_overlong :
    let p : RetryPolicy :=
      { retries := 2, initialDelay := .saturate (UInt64.size * 900000000), factor := 3 }
    let late : Nat → Except BoardError Nat := fun i =>
      if i < 2 then .error (.communication "no link") else .ok i
    let never : Nat → Except BoardError Nat := fun _ => .error (.communication "no link")
    FirstSettled late 2 ∧ 2 ≤ p.retries.toNat ∧
      (∃ t, p.attempt Tape.sleep Tape.call { outcomes := late } = .ok 2 t ∧ p.Paused 2 t) ∧
      (∀ j, FirstSettled never j → p.retries.toNat < j) ∧
      ∃ t e, never 2 = .error e ∧ e.isTransient = true ∧
        p.attempt Tape.sleep Tape.call { outcomes := never } = .error (.exhausted 2 e) t ∧
        p.Paused 2 t := by
  intro p late never
  have hlate : FirstSettled late 2 :=
    ⟨nofun, fun i hi => ⟨"no link", if_pos hi⟩⟩
  have hnever : ∀ j, FirstSettled never j → p.retries.toNat < j :=
    fun j hj => absurd ⟨"no link", rfl⟩ hj.settled
  exact ⟨hlate, by decide, (p.attempt_outcomes late).1 2 hlate (by decide), hnever,
    (p.attempt_outcomes never).2 hnever⟩

end RetryPolicy

end PulseDaq
