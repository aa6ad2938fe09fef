import PulseDaq.Proofs.Simulation
import PulseDaq.Proofs.Storage.Answers

/-!
# Digitizers that share a writer

Callers with a digitizer each write through one writer, in any order. If the backend answers each
digitizer by what has been asked about that digitizer alone, no caller notices the others.

* `BackendCall.Separate`: such a backend.
* `Synchronized.Alike`: a shared writer and a writer of one digitizer alone, between which that
  digitizer sees no difference. A call for the digitizer on both keeps this and is answered alike
  (`perform_own`); a call for another one on the shared writer keeps it (`perform_other`).
* `Interleaves`: some calls are those of each caller, in an order that keeps that of each caller.
* `Synchronized.alone_of_interleaves`: the main result.
-/

namespace PulseDaq

/-! ## What backends answer -/

namespace BackendCall

/-- The digitizer that a call is about. -/
def digitizer? : BackendCall → Option UInt64
  | createDigitizer id _ => some id
  | writeUnit u => some u.id
  | close => none

/-- The calls about a digitizer. -/
def own (id : UInt64) (calls : List BackendCall) : List BackendCall :=
  calls.filter fun c => c.digitizer? = some id

variable {γ : Type} [Backend γ]

/-- What the call is answered. -/
def answer (g : γ) (c : BackendCall) : Except WriterError Unit :=
  match c.perform g with
  | .ok _ _ => .ok ()
  | .error e _ => .error e

/-- The backend after a call, whatever it answers. -/
def after (g : γ) (c : BackendCall) : γ :=
  match c.perform g with
  | .ok _ g => g
  | .error _ g => g

theorem perform_after (g : γ) (c : BackendCall) :
    (∃ a, c.perform g = .ok a (c.after g)) ∨ ∃ e, c.perform g = .error e (c.after g) := by
  unfold after
  cases c.perform g with
  | ok a g' => exact .inl ⟨a, rfl⟩
  | error e g' => exact .inr ⟨e, rfl⟩

/-- The backend after some calls. -/
def run (g : γ) (calls : List BackendCall) : γ :=
  calls.foldl after g

/-- Until it is closed, the backend answers a call about a digitizer by the calls about that
digitizer before, whatever the others were. -/
def Separate (g : γ) : Prop :=
  ∀ (id : UInt64) (c : BackendCall) (before before' : List BackendCall),
    c.digitizer? = some id → .close ∉ before → .close ∉ before' →
    own id before = own id before' → c.answer (run g before) = c.answer (run g before')

end BackendCall

namespace BackendLog

/-- The logged calls, the earliest first. -/
def calls (log : BackendLog) : List BackendCall :=
  (log.map (·.1)).reverse

/-- The calls about a digitizer and their answers, the latest first. -/
def own (id : UInt64) (log : BackendLog) : BackendLog :=
  log.filter fun e => e.1.digitizer? = some id

theorem own_calls (id : UInt64) (log : BackendLog) :
    BackendCall.own id log.calls = (log.own id).calls := by
  rw [BackendCall.own, calls, List.filter_reverse, List.filter_map]
  rfl

theorem own_own (id : UInt64) (log : BackendLog) : (log.own id).own id = log.own id := by
  simp only [own, List.filter_filter, Bool.and_self]

theorem calls_cons (c : BackendCall) (r : Except WriterError Unit) (log : BackendLog) :
    calls ((c, r) :: log) = calls log ++ [c] := by
  rw [calls, List.map_cons, List.reverse_cons]
  rfl

/-- A backend with one more call in its log. -/
theorem run_calls_cons {γ : Type} [Backend γ] (g : γ) (c : BackendCall)
    (r : Except WriterError Unit) (log : BackendLog) :
    BackendCall.run g (calls ((c, r) :: log)) = c.after (BackendCall.run g log.calls) := by
  rw [calls_cons, BackendCall.run, List.foldl_append]
  rfl

theorem own_cons_of_eq {id : UInt64} {c : BackendCall} (h : c.digitizer? = some id)
    (r : Except WriterError Unit) (log : BackendLog) :
    own id ((c, r) :: log) = (c, r) :: own id log :=
  List.filter_cons_of_pos (by simp [h])

theorem own_cons_of_ne {id : UInt64} {c : BackendCall} (h : c.digitizer? ≠ some id)
    (r : Except WriterError Unit) (log : BackendLog) : own id ((c, r) :: log) = own id log :=
  List.filter_cons_of_neg (by simp [h])

end BackendLog

namespace Logged

variable {γ : Type} [Backend γ] {g : γ}

/-- The backend is what the logged calls have made of `g`, and has not been closed. -/
structure Since (g : γ) (l : Logged γ) : Prop where
  backend_eq : l.backend = BackendCall.run g l.log.calls
  opened : .close ∉ l.log.calls

/-- What a logged call comes to. -/
theorem note_eq (c : BackendCall) (l : Logged γ) : note c l =
    match c.answer l.backend with
    | .ok _ => .ok () ⟨c.after l.backend, (c, .ok ()) :: l.log⟩
    | .error e => .error e ⟨c.after l.backend, (c, .error e) :: l.log⟩ := by
  unfold note BackendCall.answer BackendCall.after
  cases c.perform l.backend <;> rfl

theorem Since.note {l : Logged γ} (h : Since g l) {c : BackendCall} (hc : c ≠ .close)
    (r : Except WriterError Unit) : Since g ⟨c.after l.backend, (c, r) :: l.log⟩ where
  backend_eq := by rw [BackendLog.run_calls_cons, h.backend_eq]
  opened := by
    rw [BackendLog.calls_cons, List.mem_append, List.mem_singleton, not_or]
    exact ⟨h.opened, hc.symm⟩

end Logged

/-! ## One digitizer on two writers -/

namespace Synchronized

variable {γ : Type} [Backend γ] {g : γ} {id : UInt64} {w v : Synchronized (Logged γ)}

/-- What a digitizer sees of the shared writer `w` is what it sees of `v`, which it has alone. -/
structure Alike (g : γ) (id : UInt64) (w v : Synchronized (Logged γ)) : Prop where
  opened : w.closed = false
  opened_alone : v.closed = false
  since : w.backend.Since g
  since_alone : v.backend.Since g
  known : w.known.lookup id = v.known.lookup id
  /-- Alone, every call is about the digitizer. -/
  log : w.backend.log.own id = v.backend.log

omit [Backend γ] in
theorem ne_close_of_digitizer? {c : BackendCall} (hc : c.digitizer? = some id) : c ≠ .close := by
  rintro rfl
  cases hc

/-- A call about the digitizer is answered alike. -/
theorem onBackend_own (hg : BackendCall.Separate g) {c : BackendCall}
    (hc : c.digitizer? = some id) :
    Simulates (Alike g id) (onBackend (Logged.note c)) (onBackend (Logged.note c)) := by
  intro w v h
  have hclose := ne_close_of_digitizer? hc
  have hown : BackendCall.own id w.backend.log.calls = BackendCall.own id v.backend.log.calls := by
    have halone : v.backend.log.own id = v.backend.log := by rw [← h.log, BackendLog.own_own]
    rw [BackendLog.own_calls, BackendLog.own_calls, h.log, halone]
  have hanswer : c.answer w.backend.backend = c.answer v.backend.backend := by
    rw [h.since.backend_eq, h.since_alone.backend_eq]
    exact hg id c _ _ hc h.since.opened h.since_alone.opened hown
  have hnote (r : Except WriterError Unit) : Alike g id
      { w with backend := ⟨c.after w.backend.backend, (c, r) :: w.backend.log⟩ }
      { v with backend := ⟨c.after v.backend.backend, (c, r) :: v.backend.log⟩ } :=
    { opened := h.opened
      opened_alone := h.opened_alone
      since := h.since.note hclose r
      since_alone := h.since_alone.note hclose r
      known := h.known
      log := by rw [BackendLog.own_cons_of_eq hc, h.log] }
  simp only [onBackend, Logged.note_eq, hanswer]
  cases c.answer v.backend.backend with
  | ok _ => exact .ok () (hnote (.ok ()))
  | error e => exact .error e (hnote (.error e))

/-- A call about another digitizer changes nothing for this one. -/
theorem onBackend_other {c : BackendCall} {j : UInt64} (hc : c.digitizer? = some j) (hne : j ≠ id) :
    Preserves (Alike g id · v) (onBackend (Logged.note c)) := by
  intro w h
  have hclose := ne_close_of_digitizer? hc
  have hnote (r : Except WriterError Unit) : Alike g id
      { w with backend := ⟨c.after w.backend.backend, (c, r) :: w.backend.log⟩ } v :=
    { h with
      since := h.since.note hclose r
      log := by
        rw [BackendLog.own_cons_of_ne (by rw [hc]; simpa using hne), h.log] }
  simp only [onBackend, Logged.note_eq]
  cases c.answer w.backend.backend with
  | ok _ => exact hnote (.ok ())
  | error e => exact hnote (.error e)

/-- A unit of the digitizer is written alike. -/
theorem write_own (hg : BackendCall.Separate g) {u : StoredUnit} (hu : u.id = id) :
    Simulates (Alike g id) (write u) (write u) := by
  refine .ite (.pure _) (.bind_get fun w v h => ?_)
  rw [h.opened, h.opened_alone]
  refine .guard (.bind (.bind_get fun w v h => ?_) fun _ => onBackend_own hg (congrArg some hu))
  have hknown := h.known
  rw [← hu] at hknown
  rw [hknown]
  cases v.known.lookup u.id with
  | some a => exact .ite (.throw _) (.pure _)
  | none =>
    have hcreate := onBackend_own hg (c := Ledger.creation u) (congrArg some hu)
    refine .bind hcreate fun _ => .modify fun w v h => { h with known := ?_ }
    simp only [List.lookup_cons, h.known]

/-- A unit of another digitizer changes nothing for this one. -/
theorem write_other {u : StoredUnit} (hu : u.id ≠ id) : Preserves (Alike g id · v) (write u) := by
  refine .ite (.pure _) (.bind_get fun w => .guard ?_)
  refine .bind (.bind_get fun w => ?_) fun _ => onBackend_other (c := .writeUnit u) rfl hu
  cases w.known.lookup u.id with
  | some a => exact .ite (.throw _) (.pure _)
  | none =>
    have hcreate := onBackend_other (g := g) (v := v) (c := Ledger.creation u) rfl hu
    refine .bind hcreate fun _ => .modify fun w h => { h with known := ?_ }
    have hid : (id == u.id) = false := by simpa using Ne.symm hu
    simp only [List.lookup_cons, hid, h.known]

/-- A call for the digitizer is answered alike. -/
theorem perform_own (hg : BackendCall.Separate g) {c : WriterCall} (hc : c.digitizer? = some id) :
    Simulates (Alike g id) c.perform c.perform := by
  have hne : c ≠ .close := by
    rintro rfl
    cases hc
  rw [perform_eq_write hne]
  cases hunit : c.unit with
  | error e => exact .throw e
  | ok unit =>
    cases unit with
    | none => exact .pure ()
    | some u =>
      have hu := WriterCall.digitizer?_eq_of_unit hunit
      rw [hc] at hu
      exact write_own hg (Option.some.inj hu).symm

/-- A call for another digitizer changes nothing for this one. -/
theorem perform_other {c : WriterCall} {j : UInt64} (hc : c.digitizer? = some j) (hj : j ≠ id) :
    Preserves (Alike g id · v) c.perform := by
  have hne : c ≠ .close := by
    rintro rfl
    cases hc
  rw [perform_eq_write hne]
  cases hunit : c.unit with
  | error e => exact .throw e
  | ok unit =>
    cases unit with
    | none => exact .pure ()
    | some u =>
      have hu := WriterCall.digitizer?_eq_of_unit hunit
      rw [hc] at hu
      exact write_other (Option.some.inj hu ▸ hj)

/-- One call for the digitizer on both writers. -/
theorem Alike.own (h : Alike g id w v) (hg : BackendCall.Separate g) {c : WriterCall}
    (hc : c.digitizer? = some id) :
    c.answer w = c.answer v ∧ Alike g id (c.after w) (c.after v) := by
  unfold WriterCall.answer WriterCall.after
  obtain ⟨_, w', v', hw, hv, h'⟩ | ⟨e, w', v', hw, hv, h'⟩ := (perform_own hg hc).cases h
  · rw [hw, hv]
    exact ⟨rfl, h'⟩
  · rw [hw, hv]
    exact ⟨rfl, h'⟩

/-- One call for another digitizer on the shared writer. -/
theorem Alike.other (h : Alike g id w v) {c : WriterCall} {j : UInt64}
    (hc : c.digitizer? = some j) (hj : j ≠ id) : Alike g id (c.after w) v := by
  have ht := perform_other (γ := γ) (g := g) (v := v) hc hj
  obtain ⟨_, hrun⟩ | ⟨_, hrun⟩ := WriterCall.perform_after w c
  · exact ht.ok h hrun
  · exact ht.error h hrun

end Synchronized

/-! ## Callers -/

section Callers

variable {κ : Type} [DecidableEq κ]

/-- The calls of one caller, in order. -/
def callsOf (k : κ) (calls : List (κ × WriterCall)) : List WriterCall :=
  (calls.filter (·.1 = k)).map (·.2)

/-- The calls are those of the lists, in an order that keeps the order of each list. -/
def Interleaves (lists : κ → List WriterCall) (calls : List (κ × WriterCall)) : Prop :=
  ∀ k, callsOf k calls = lists k

/-- The calls of one caller with their answers, where all callers share a writer. -/
def answersOf {ω : Type} [DataWriter ω] (k : κ) (w : ω) :
    List (κ × WriterCall) → List (WriterCall × Except WriterError Unit)
  | [] => []
  | (k', c) :: calls =>
    if k' = k then (c, c.answer w) :: answersOf k (c.after w) calls
    else answersOf k (c.after w) calls

namespace Synchronized

variable {γ : Type} [Backend γ] {g : γ}

/-- Callers that share a writer are answered as each of them is alone, and leave behind what each of
them leaves behind alone. -/
theorem alike_run (hg : BackendCall.Separate g) {id : κ → UInt64} (hid : Function.Injective id)
    (k : κ) {calls : List (κ × WriterCall)} (hcalls : ∀ e ∈ calls, e.2.digitizer? = some (id e.1))
    {w v : Synchronized (Logged γ)} (h : Alike g (id k) w v) :
    answersOf k w calls = WriterCall.answers v (callsOf k calls) ∧
      Alike g (id k) (WriterCall.run w (calls.map (·.2))) (WriterCall.run v (callsOf k calls)) := by
  induction calls generalizing w v with
  | nil => exact ⟨rfl, h⟩
  | cons e calls ih =>
    obtain ⟨k', c⟩ := e
    obtain ⟨hc, hrest⟩ := List.forall_mem_cons.1 hcalls
    simp only at hc
    by_cases hk : k' = k
    · subst hk
      obtain ⟨hanswer, hafter⟩ := h.own hg hc
      obtain ⟨hanswers, hrun⟩ := ih hrest hafter
      have hown : callsOf k' ((k', c) :: calls) = c :: callsOf k' calls := by
        simp [callsOf]
      rw [hown, answersOf, if_pos rfl, WriterCall.answers, hanswer, hanswers]
      exact ⟨rfl, hrun⟩
    · have hother : callsOf k ((k', c) :: calls) = callsOf k calls := by
        simp [callsOf, hk]
      rw [hother, answersOf, if_neg hk]
      exact ih hrest (h.other hc fun heq => hk (hid heq))

theorem answersOf_forget (k : κ) (w : Synchronized (Logged γ)) (calls : List (κ × WriterCall)) :
    answersOf k w.forget calls = answersOf k w calls := by
  induction calls generalizing w with
  | nil => rfl
  | cons e calls ih =>
    obtain ⟨k', c⟩ := e
    rw [answersOf, answersOf, answer_forget, ← after_forget, ih]

/-- **Independence.** Callers with a digitizer each, who share one writer over a backend that
answers each digitizer by its own calls: however their calls interleave, each of them is answered
as if it were alone, and the backend is asked about its digitizer what it would be asked then. -/
theorem alone_of_interleaves (hg : BackendCall.Separate g) {id : κ → UInt64}
    (hid : Function.Injective id) {lists : κ → List WriterCall}
    (hlists : ∀ k, ∀ c ∈ lists k, c.digitizer? = some (id k)) {calls : List (κ × WriterCall)}
    (hcalls : Interleaves lists calls) (k : κ) :
    let shared : Synchronized γ := { backend := g }
    answersOf k shared calls = WriterCall.answers shared (lists k) ∧
      (WriterCall.run (logged g) (calls.map (·.2))).backend.log.own (id k) =
        (WriterCall.run (logged g) (lists k)).backend.log := by
  have hown : ∀ e ∈ calls, e.2.digitizer? = some (id e.1) := by
    intro e he
    refine hlists e.1 e.2 ?_
    rw [← hcalls e.1]
    exact List.mem_map.2 ⟨e, List.mem_filter.2 ⟨he, by simp⟩, rfl⟩
  have hstart : Alike g (id k) (logged g) (logged g) :=
    { opened := rfl
      opened_alone := rfl
      since := ⟨rfl, List.not_mem_nil⟩
      since_alone := ⟨rfl, List.not_mem_nil⟩
      known := rfl
      log := rfl }
  obtain ⟨hanswers, hrun⟩ := alike_run hg hid k hown hstart
  rw [hcalls k] at hanswers hrun
  rw [← answersOf_forget, ← answers_forget] at hanswers
  exact ⟨hanswers, hrun.log⟩

end Synchronized

end Callers

/-! ## A separate backend -/

/-- A backend that stores nothing and answers each call by a rule from the calls about the same
digitizer before. -/
structure Ruled where
  rule : List BackendCall → BackendCall → Except WriterError Unit
  /-- The calls so far, the earliest first. -/
  calls : List BackendCall := []

namespace Ruled

/-- Note a call and answer it. -/
def note (c : BackendCall) : EStateM WriterError Ruled Unit := fun b =>
  let own := b.calls.filter fun before => before.digitizer? = c.digitizer?
  match b.rule own c with
  | .ok _ => .ok () { b with calls := b.calls ++ [c] }
  | .error e => .error e { b with calls := b.calls ++ [c] }

instance : Backend Ruled where
  createDigitizer id a := note (.createDigitizer id a)
  writeUnit u := note (.writeUnit u)
  close := note .close

theorem answer_eq (b : Ruled) (c : BackendCall) : c.answer b =
    b.rule (b.calls.filter fun before => before.digitizer? = c.digitizer?) c := by
  have hperform : c.perform b = note c b := by cases c <;> rfl
  unfold BackendCall.answer
  rw [hperform, note]
  cases b.rule (b.calls.filter fun before => before.digitizer? = c.digitizer?) c <;> rfl

theorem after_eq (b : Ruled) (c : BackendCall) :
    c.after b = { b with calls := b.calls ++ [c] } := by
  have hperform : c.perform b = note c b := by cases c <;> rfl
  unfold BackendCall.after
  rw [hperform, note]
  cases b.rule (b.calls.filter fun before => before.digitizer? = c.digitizer?) c <;> rfl

theorem run_eq (b : Ruled) (calls : List BackendCall) :
    BackendCall.run b calls = { b with calls := b.calls ++ calls } := by
  induction calls generalizing b with
  | nil => rw [List.append_nil]; rfl
  | cons c calls ih =>
    show BackendCall.run (c.after b) calls = _
    rw [ih, after_eq, List.append_assoc]
    rfl

theorem separate (b : Ruled) : BackendCall.Separate b := by
  intro id c before before' hc _ _ hown
  simp only [answer_eq, run_eq, List.filter_append, hc]
  rw [show before.filter (fun c => c.digitizer? = some id) = _ from hown]
  rfl

/-- Room for a digitizer is refused the first time, and each timestamp is taken once. -/
def grudging : Ruled where
  rule
    | [], .createDigitizer .. => .error (.io "room" (.other "busy"))
    | before, .writeUnit u =>
      if before.any fun | .writeUnit v => v.timestamp = u.timestamp | _ => false then
        .error (.alreadyExists u.id u.timestamp)
      else .ok ()
    | _, _ => .ok ()

/-- What two digitizers write: one comes to another layout, the other one to a timestamp twice. -/
def twoLists : Bool → List WriterCall
  | false => [.writeEvents [.compact {}] 7 1, .writeEvents [.compact {}, .compact {}] 7 2,
      .writeEvents [.extended {}] 7 3]
  | true => [.writeEvents [.compact {}] 3 1, .writeEvents [.compact {}] 3 2,
      .writeEvents [.compact {}] 3 2]

/-- The two digitizers in turns. -/
theorem grudging_alone :
    let calls : List (Bool × WriterCall) := ((twoLists true).zip (twoLists false)).flatMap
      fun (c, c') => [(true, c), (false, c')]
    let shared : Synchronized Ruled := { backend := grudging }
    Interleaves twoLists calls ∧ ∀ k,
      answersOf k shared calls = WriterCall.answers shared (twoLists k) ∧
        (WriterCall.run (Synchronized.logged grudging) (calls.map (·.2))).backend.log.own
            (cond k 3 7) =
          (WriterCall.run (Synchronized.logged grudging) (twoLists k)).backend.log := by
  intro calls shared
  have hcalls : Interleaves twoLists calls := by
    intro k
    cases k <;> rfl
  have hlists : ∀ k, ∀ c ∈ twoLists k, c.digitizer? = some (cond k 3 7) := by
    intro k
    cases k <;> simp [twoLists, WriterCall.digitizer?]
  have hid : Function.Injective fun k => cond k (3 : UInt64) 7 := by
    intro k k' h
    cases k <;> cases k' <;> simp at h ⊢
  exact ⟨hcalls, Synchronized.alone_of_interleaves (separate grudging) hid hlists hcalls⟩

example : (WriterCall.answers ({ backend := grudging } : Synchronized Ruled) (twoLists false)).map
    (·.2) = [.error (.io "room" (.other "busy")), .ok (),
      .error (.layout 7 .compact 8 .extended 14)] := by rfl

end Ruled

end PulseDaq
