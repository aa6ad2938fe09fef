import PulseDaq.Proofs.Storage.History

/-!
# Answers and the log

What calls of a writer add to the log of its backend, and how their answers count it.

* `StoredUnit.Of`: a unit that is made of some events.
* `WriterCall.answers`: some calls with their answers.
* `Answered.suffix`: the log only grows.
* `Answered.storedOf`: a unit is stored exactly by a call that has records to write and is answered
  well. So the units stored for a digitizer can be counted from outside
  (`Synchronized.storedOf_run`).
* `Ledger.Furnished`: what is stored about a digitizer follows from its kind and record size.
-/

namespace PulseDaq

/-! ## Events and units -/

/-- The unit is made of the events. -/
structure StoredUnit.Of (events : List Event) (id timestamp : UInt64) (u : StoredUnit) : Prop where
  id_eq : u.id = id
  timestamp_eq : u.timestamp = timestamp
  elements_eq : u.elements = events.length
  bytes_eq : u.bytes = Event.encodeAll events
  layout : ∀ e ∈ events, e.kind = u.kind ∧ e.elementSize = u.elementSize

theorem StoredUnit.of_ofEvents {events : List Event} {id timestamp : UInt64} {u : StoredUnit}
    (h : ofEvents events id timestamp = .ok (some u)) : u.Of events id timestamp := by
  cases events with
  | nil => cases h
  | cons e rest =>
    unfold ofEvents at h
    dsimp only at h
    split at h
    · next hall =>
      cases h
      refine ⟨rfl, rfl, rfl, rfl, List.forall_mem_cons.2 ⟨⟨rfl, rfl⟩, fun f hf => ?_⟩⟩
      exact of_decide_eq_true (List.all_eq_true.1 hall f hf)
    · cases h

/-! ## Calls and answers -/

namespace WriterCall

variable {ω : Type} [DataWriter ω]

/-- What the call is answered. -/
def answer (w : ω) (c : WriterCall) : Except WriterError Unit :=
  match c.perform w with
  | .ok _ _ => .ok ()
  | .error e _ => .error e

/-- Some calls with their answers, the earliest first. -/
def answers (w : ω) : List WriterCall → List (WriterCall × Except WriterError Unit)
  | [] => []
  | c :: calls => (c, c.answer w) :: answers (c.after w) calls

/-- The digitizer that a call writes for. -/
def digitizer? : WriterCall → Option UInt64
  | writeBuffer _ _ id _ | writeSet _ id _ | writeEvents _ id _ => some id
  | addDigitizer _ | close => none

/-- How many calls there are with records to write for the digitizer that are answered well. -/
def written (id : UInt64) (w : ω) (calls : List WriterCall) : Nat :=
  (answers w calls).countP fun e => e.1.digitizer? = some id ∧ e.1.layouts ≠ [] ∧ e.2.isOk

/-- A unit is written for the digitizer of its call. -/
theorem digitizer?_eq_of_unit {c : WriterCall} {u : StoredUnit} (h : c.unit = .ok (some u)) :
    c.digitizer? = some u.id := by
  cases c with
  | addDigitizer id => cases h
  | close => cases h
  | writeBuffer kind buffer id timestamp =>
    cases h
    rfl
  | writeSet events id timestamp => rw [digitizer?, (StoredUnit.of_ofEvents h).id_eq]
  | writeEvents events id timestamp => rw [digitizer?, (StoredUnit.of_ofEvents h).id_eq]

/-- There are records to write if the unit has some. -/
theorem layouts_ne_nil_iff {c : WriterCall} {u : StoredUnit} (h : c.unit = .ok (some u)) :
    c.layouts ≠ [] ↔ u.elements ≠ 0 := by
  obtain ⟨hnil, hunit⟩ | ⟨hne, -, u', hunit, hwhole⟩ | ⟨-, hunit⟩ := c.unit_cases
  · rw [h] at hunit
    obtain ⟨⟨⟩⟩ | ⟨u', ⟨⟨⟩⟩, hempty⟩ := hunit
    simp [hnil, hempty]
  · rw [h] at hunit
    cases hunit
    exact iff_of_true hne (Nat.ne_of_gt hwhole.1)
  · rw [h] at hunit
    cases hunit

end WriterCall

/-! ## The units in a log -/

/-- The digitizer of a unit that has been stored. -/
def BackendCall.stored? : BackendCall × Except WriterError Unit → Option UInt64
  | (writeUnit u, .ok _) => some u.id
  | _ => none

/-- The number of units stored for a digitizer. -/
def BackendLog.storedOf (id : UInt64) (log : BackendLog) : Nat :=
  (log.filterMap BackendCall.stored?).count id

theorem BackendLog.storedOf_writeUnit (id : UInt64) (u : StoredUnit) (a : Unit) (log : BackendLog) :
    storedOf id ((.writeUnit u, .ok a) :: log) = storedOf id log + if u.id = id then 1 else 0 := by
  simp [storedOf, BackendCall.stored?, List.count_cons]

@[simp] theorem BackendLog.storedOf_createDigitizer (id id' : UInt64) (a : DigitizerAttributes)
    (r : Except WriterError Unit) (log : BackendLog) :
    storedOf id ((.createDigitizer id' a, r) :: log) = storedOf id log := by
  rw [storedOf, List.filterMap_cons]
  rfl

@[simp] theorem BackendLog.storedOf_close (id : UInt64) (r : Except WriterError Unit)
    (log : BackendLog) : storedOf id ((.close, r) :: log) = storedOf id log := by
  rw [storedOf, List.filterMap_cons]
  rfl

@[simp] theorem BackendLog.storedOf_error (id : UInt64) (c : BackendCall) (e : WriterError)
    (log : BackendLog) : storedOf id ((c, .error e) :: log) = storedOf id log := by
  rw [storedOf, List.filterMap_cons]
  cases c with
  | createDigitizer | writeUnit | close => rfl

namespace Answered

variable {l l' : Ledger} {c : WriterCall} {r : Except WriterError Unit}

/-- The log only grows. -/
theorem suffix (h : Answered l c r l') : l.log <:+ l'.log := by
  cases h with
  | nothing | mixed | closedBefore => exact List.suffix_refl _
  | closed => exact List.suffix_cons _ _
  | written _ u _ r l' hw =>
    cases hw with
    | empty | closed | layout => exact List.suffix_refl _
    | stored | refused => exact List.suffix_cons _ _
    | created => exact (List.suffix_cons _ _).trans (List.suffix_cons _ _)

/-- Closing adds the closing to the log. -/
theorem log_of_close (h : Answered l .close r l') (hopen : l.closed = false) :
    l'.log = (.close, r) :: l.log := by
  cases h with
  | nothing hne | mixed hne | written hne => exact absurd rfl hne
  | closedBefore _ hclosed =>
    rw [hopen] at hclosed
    cases hclosed
  | closed => rfl

/-- Nothing else closes the writer. -/
theorem closed_eq (h : Answered l c r l') (hne : c ≠ .close) : l'.closed = l.closed := by
  cases h with
  | nothing | mixed => rfl
  | closedBefore h | closed h => exact absurd h hne
  | written _ u _ r l' hw =>
    cases hw with
    | empty | closed | layout | stored | refused | created => rfl

/-- A unit is stored by a call that has records to write and is answered well, and by no other. -/
theorem storedOf (h : Answered l c r l') (id : UInt64) : l'.log.storedOf id =
    l.log.storedOf id + if c.digitizer? = some id ∧ c.layouts ≠ [] ∧ r.isOk then 1 else 0 := by
  cases h with
  | nothing _ hunit =>
    obtain ⟨hnil, -⟩ | ⟨-, -, u, hu, -⟩ | ⟨-, hmixed⟩ := c.unit_cases
    · simp [hnil]
    · cases hunit.symm.trans hu
    · cases hunit.symm.trans hmixed
  | mixed => simp [Except.isOk, Except.toBool]
  | closedBefore hc => simp [hc, WriterCall.digitizer?]
  | closed hc => simp [hc, WriterCall.digitizer?, Ledger.note]
  | written _ u hunit r l' hw =>
    simp only [WriterCall.digitizer?_eq_of_unit hunit, WriterCall.layouts_ne_nil_iff hunit]
    cases hw with
    | empty hempty => simp [hempty]
    | closed | layout => simp [Except.isOk, Except.toBool]
    | refused => simp [Ledger.note, Except.isOk, Except.toBool]
    | stored hne | created hne =>
      cases r with
      | error e =>
        simp [Ledger.note, Ledger.create, Ledger.creation, Except.isOk, Except.toBool]
      | ok _ =>
        simp [Ledger.note, Ledger.create, Ledger.creation, BackendLog.storedOf_writeUnit, hne,
          Except.isOk, Except.toBool]

end Answered

/-! ## What is stored about digitizers -/

/-- What is stored about a digitizer follows from its kind and record size. -/
def Ledger.Furnished (l : Ledger) : Prop :=
  ∀ id a r, (.createDigitizer id a, r) ∈ l.log → a = .of a.kind a.elementSize

theorem Ledger.Furnished.note {l : Ledger} (hl : l.Furnished) {c : BackendCall}
    (hc : ∀ id a, c = .createDigitizer id a → a = .of a.kind a.elementSize)
    (r : Except WriterError Unit) : (l.note c r).Furnished := by
  intro id a r' ha
  rcases List.mem_cons.1 ha with ha | ha
  · exact hc id a (congrArg Prod.fst ha).symm
  · exact hl id a r' ha

theorem Answered.furnished {l l' : Ledger} {c : WriterCall} {r : Except WriterError Unit}
    (h : Answered l c r l') (hl : l.Furnished) : l'.Furnished := by
  have hcreation (u : StoredUnit) (id : UInt64) (a : DigitizerAttributes)
      (ha : Ledger.creation u = .createDigitizer id a) : a = .of a.kind a.elementSize := by
    cases ha
    rfl
  cases h with
  | nothing | mixed | closedBefore => exact hl
  | closed => exact .note (l := { l with closed := true }) hl (fun _ _ h => by cases h) _
  | written _ u _ r l' hw =>
    cases hw with
    | empty | closed | layout => exact hl
    | stored => exact hl.note (fun _ _ h => by cases h) _
    | refused => exact hl.note (hcreation u) _
    | created =>
      have hroom := hl.note (hcreation u) (.ok ())
      exact .note (l := l.create u) hroom (fun _ _ h => by cases h) _

/-! ## Histories -/

namespace Synchronized

variable {γ : Type} [Backend γ]

/-- A call is answered as its case says. -/
theorem answered_after (w : Synchronized (Logged γ)) (c : WriterCall) :
    Answered w.ledger c (c.answer w) (c.after w).ledger := by
  have ht := perform_answered (γ := γ) (l := w.ledger) c
  unfold WriterCall.answer WriterCall.after
  cases hrun : c.perform w with
  | ok _ w' => exact ht.ok rfl hrun
  | error e w' => exact ht.error rfl hrun

theorem suffix_run (w : Synchronized (Logged γ)) (calls : List WriterCall) :
    w.backend.log <:+ (WriterCall.run w calls).backend.log := by
  induction calls generalizing w with
  | nil => exact List.suffix_refl _
  | cons c calls ih => exact (answered_after w c).suffix.trans (ih (c.after w))

/-- The units stored for a digitizer are as many as the calls that have written for it. -/
theorem storedOf_run (w : Synchronized (Logged γ)) (calls : List WriterCall) (id : UInt64) :
    (WriterCall.run w calls).backend.log.storedOf id =
      w.backend.log.storedOf id + WriterCall.written id w calls := by
  induction calls generalizing w with
  | nil => rfl
  | cons c calls ih =>
    have hafter := (answered_after w c).storedOf id
    have hwritten : WriterCall.written id w (c :: calls) =
        WriterCall.written id (c.after w) calls + _ := List.countP_cons
    simp only [decide_eq_true_eq] at hwritten
    show (WriterCall.run (c.after w) calls).backend.log.storedOf id = _
    rw [ih, hwritten, show (c.after w).backend.log.storedOf id = _ from hafter, Nat.add_assoc,
      Nat.add_comm (ite ..)]
    rfl

theorem closed_run (w : Synchronized (Logged γ)) {calls : List WriterCall} (h : .close ∉ calls) :
    (WriterCall.run w calls).closed = w.closed := by
  induction calls generalizing w with
  | nil => rfl
  | cons c calls ih =>
    rw [List.mem_cons, not_or] at h
    obtain ⟨hne, hrest⟩ := h
    exact (ih (c.after w) hrest).trans ((answered_after w c).closed_eq (Ne.symm hne))

theorem furnished_run {w : Synchronized (Logged γ)} (h : w.ledger.Furnished)
    (calls : List WriterCall) : (WriterCall.run w calls).ledger.Furnished := by
  induction calls generalizing w with
  | nil => exact h
  | cons c calls ih => exact ih ((answered_after w c).furnished h)

/-! ## Without the log -/

theorem answer_forget (c : WriterCall) (w : Synchronized (Logged γ)) :
    c.answer w.forget = c.answer w := by
  have h := perform_forget c w
  unfold WriterCall.answer
  cases hrun : c.perform w with
  | ok _ w' =>
    rw [hrun] at h
    rw [h]
  | error e w' =>
    rw [hrun] at h
    rw [h]

theorem answers_forget (w : Synchronized (Logged γ)) (calls : List WriterCall) :
    WriterCall.answers w.forget calls = WriterCall.answers w calls := by
  induction calls generalizing w with
  | nil => rfl
  | cons c calls ih =>
    rw [WriterCall.answers, answer_forget, ← after_forget, ih]
    rfl

theorem written_forget (id : UInt64) (w : Synchronized (Logged γ)) (calls : List WriterCall) :
    WriterCall.written id w.forget calls = WriterCall.written id w calls := by
  rw [WriterCall.written, answers_forget]
  rfl

end Synchronized

end PulseDaq
