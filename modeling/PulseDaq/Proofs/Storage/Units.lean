import PulseDaq.Proofs.Storage.Logged
import PulseDaq.Proofs.Triple

/-!
# Writing a unit

What a writer asks of its backend to store one unit, whatever the backend answers.

* `LawfulLog`: what the backend calls of a writer keep to. A call that is `Admissible` to the calls
  before it can be added (`LawfulLog.cons`).
* `Ledger`: what a writer knows, with the log of its backend.
* `Written`: what writing a unit can come to, case by case (`Synchronized.write_written`).
-/

namespace PulseDaq

/-- The unit has records, and its bytes are as many as its records take. -/
def StoredUnit.Whole (u : StoredUnit) : Prop :=
  0 < u.elements ∧ u.bytes.length = u.elements * u.elementSize

/-- What the backend calls of a writer keep to, the latest call first. -/
structure LawfulLog (log : BackendLog) : Prop where
  /-- A digitizer that there is room for is not created again. -/
  created_once : log.Pairwise fun later earlier => ∀ id a a',
    ¬(later = (.createDigitizer id a, .ok ()) ∧ earlier = (.createDigitizer id a', .ok ()))
  /-- A unit comes after its digitizer, and is of its kind and record size. -/
  created_first : ∀ later u r earlier, log = later ++ (.writeUnit u, r) :: earlier →
    ∃ a, (.createDigitizer u.id a, .ok ()) ∈ earlier ∧
      a.kind = u.kind ∧ a.elementSize = u.elementSize
  whole : ∀ u r, (.writeUnit u, r) ∈ log → u.Whole
  /-- No call follows the closing. -/
  closed_last : log.Pairwise fun _ earlier => earlier.1 ≠ .close

/-- What a call needs of the calls before it. -/
def BackendCall.Admissible (log : BackendLog) : BackendCall → Prop
  | createDigitizer id _ => ∀ a, (.createDigitizer id a, .ok ()) ∉ log
  | writeUnit u => u.Whole ∧ ∃ a, (.createDigitizer u.id a, .ok ()) ∈ log ∧
      a.kind = u.kind ∧ a.elementSize = u.elementSize
  | close => True

namespace LawfulLog

variable {log : BackendLog}

theorem nil : LawfulLog [] where
  created_once := .nil
  created_first := by
    intro later u r earlier h
    cases later <;> cases h
  whole := nofun
  closed_last := .nil

theorem cons (h : LawfulLog log) {c : BackendCall} (hc : c.Admissible log)
    (hopen : ∀ e ∈ log, e.1 ≠ .close) (r : Except WriterError Unit) :
    LawfulLog ((c, r) :: log) where
  created_once := by
    refine .cons (fun e he id a a' => ?_) h.created_once
    rintro ⟨hlater, rfl⟩
    cases hlater
    exact hc a' he
  created_first := by
    intro later u r' earlier hlog
    cases later with
    | nil =>
      cases hlog
      exact hc.2
    | cons e later =>
      rw [List.cons_append, List.cons.injEq] at hlog
      exact h.created_first later u r' earlier hlog.2
  whole := by
    intro u r' hu
    rcases List.mem_cons.1 hu with hu | hu
    · cases hu
      exact hc.1
    · exact h.whole u r' hu
  closed_last := .cons hopen h.closed_last

/-- The calls before the latest one keep to the same. -/
theorem tail {e : BackendCall × Except WriterError Unit} (h : LawfulLog (e :: log)) :
    LawfulLog log where
  created_once := (List.pairwise_cons.1 h.created_once).2
  created_first later u r earlier hlog :=
    h.created_first (e :: later) u r earlier (congrArg (e :: ·) hlog)
  whole u r hu := h.whole u r (.tail _ hu)
  closed_last := (List.pairwise_cons.1 h.closed_last).2

theorem of_suffix {earlier : BackendLog} (h : LawfulLog log) (hlog : earlier <:+ log) :
    LawfulLog earlier := by
  obtain ⟨later, rfl⟩ := hlog
  induction later with
  | nil => exact h
  | cons e later ih => exact ih h.tail

/-- A digitizer has been created once. -/
theorem created_unique (h : LawfulLog log) {id : UInt64} {a a' : DigitizerAttributes}
    (ha : (.createDigitizer id a, .ok ()) ∈ log) (ha' : (.createDigitizer id a', .ok ()) ∈ log) :
    a = a' := by
  have hpair := List.Pairwise.forall_of_forall_of_flip
    (R := fun e e' : BackendCall × Except WriterError Unit => ∀ a a',
      e = (.createDigitizer id a, .ok ()) → e' = (.createDigitizer id a', .ok ()) → a = a')
    (l := log) ?_ (h.created_once.imp ?_) (h.created_once.imp ?_)
  · exact hpair ha ha' a a' rfl rfl
  · rintro e - a a' rfl heq
    cases heq
    rfl
  · exact fun honce a a' he he' => absurd ⟨he, he'⟩ (honce id a a')
  · exact fun honce a a' he he' => absurd ⟨he', he⟩ (honce id a' a)

/-- A closing is the last call. -/
theorem eq_cons_of_closed (h : LawfulLog log) {r : Except WriterError Unit}
    (hclosed : (.close, r) ∈ log) : ∃ rest, log = (.close, r) :: rest := by
  have hlast := h.closed_last
  cases log with
  | nil => cases hclosed
  | cons e rest =>
    rcases List.mem_cons.1 hclosed with rfl | hrest
    · exact ⟨rest, rfl⟩
    · exact absurd rfl ((List.pairwise_cons.1 hlast).1 _ hrest)

end LawfulLog

/-! ## Ledgers -/

/-- What a writer knows, and the log of its backend. -/
structure Ledger where
  known : List (UInt64 × DigitizerAttributes) := []
  closed : Bool := false
  log : BackendLog := []

namespace Ledger

/-- The backend has been called. -/
def note (l : Ledger) (c : BackendCall) (r : Except WriterError Unit) : Ledger :=
  { l with log := (c, r) :: l.log }

/-- The call that makes room for the first unit of a digitizer. -/
def creation (u : StoredUnit) : BackendCall :=
  .createDigitizer u.id (.of u.kind u.elementSize)

/-- There is room now. -/
def create (l : Ledger) (u : StoredUnit) : Ledger :=
  { l.note (creation u) (.ok ()) with known := (u.id, .of u.kind u.elementSize) :: l.known }

end Ledger

/-- What writing a unit can come to: the answer, and the ledger behind it. -/
inductive Written (l : Ledger) (u : StoredUnit) : Except WriterError Unit → Ledger → Prop
  | empty (h : u.elements = 0) : Written l u (.ok ()) l
  | closed (h : u.elements ≠ 0) (hclosed : l.closed = true) : Written l u (.error .closed) l
  | layout (h : u.elements ≠ 0) (hopen : l.closed = false) (a : DigitizerAttributes)
    (hknown : l.known.lookup u.id = some a)
    (hne : a.kind ≠ u.kind ∨ a.elementSize ≠ u.elementSize) :
    Written l u (.error (.layout u.id a.kind a.elementSize u.kind u.elementSize)) l
  | stored (h : u.elements ≠ 0) (hopen : l.closed = false) (a : DigitizerAttributes)
    (hknown : l.known.lookup u.id = some a)
    (heq : a.kind = u.kind ∧ a.elementSize = u.elementSize) (r : Except WriterError Unit) :
    Written l u r (l.note (.writeUnit u) r)
  | refused (h : u.elements ≠ 0) (hopen : l.closed = false) (hnew : l.known.lookup u.id = none)
    (e : WriterError) : Written l u (.error e) (l.note (Ledger.creation u) (.error e))
  | created (h : u.elements ≠ 0) (hopen : l.closed = false) (hnew : l.known.lookup u.id = none)
    (r : Except WriterError Unit) : Written l u r ((l.create u).note (.writeUnit u) r)

namespace Written

variable {l l' : Ledger} {u : StoredUnit} {r : Except WriterError Unit}

/-- An empty unit is stored nowhere. -/
theorem of_empty (h : Written l u r l') (hempty : u.elements = 0) : r = .ok () ∧ l' = l := by
  cases h with
  | empty => exact ⟨rfl, rfl⟩
  | closed hne | layout hne | stored hne | refused hne | created hne => exact absurd hempty hne

/-- A closed writer stores nothing. -/
theorem of_closed (h : Written l u r l') (hne : u.elements ≠ 0) (hclosed : l.closed = true) :
    r = .error .closed ∧ l' = l := by
  cases h with
  | empty hempty => exact absurd hempty hne
  | closed => exact ⟨rfl, rfl⟩
  | layout _ hopen | stored _ hopen | refused _ hopen | created _ hopen =>
    rw [hclosed] at hopen
    cases hopen

end Written

/-! ## The writer -/

namespace Synchronized

variable {γ : Type} [Backend γ] {l : Ledger}

/-- The ledger of a writer over a logged backend. -/
def ledger (w : Synchronized (Logged γ)) : Ledger where
  known := w.known
  closed := w.closed
  log := w.backend.log

/-- The backend answers as it likes; the call and the answer are logged. -/
theorem onBackend_ledger (c : BackendCall) :
    Triple (fun w : Synchronized (Logged γ) => w.ledger = l) (onBackend (Logged.note c))
      (fun _ w => w.ledger = l.note c (.ok ())) fun e w => w.ledger = l.note c (.error e) := by
  rintro w rfl
  simp only [onBackend, Logged.note]
  cases c.perform w.backend.backend with
  | ok _ backend => rfl
  | error e backend => rfl

/-- Where there is room, a unit has to fit it. -/
theorem ensureRoom_known {u : StoredUnit} {a : DigitizerAttributes}
    (hknown : l.known.lookup u.id = some a) :
    Triple (fun w : Synchronized (Logged γ) => w.ledger = l) (ensureRoom u)
      (fun _ w => (a.kind = u.kind ∧ a.elementSize = u.elementSize) ∧ w.ledger = l)
      fun e w => ((a.kind ≠ u.kind ∨ a.elementSize ≠ u.elementSize) ∧
        e = .layout u.id a.kind a.elementSize u.kind u.elementSize) ∧ w.ledger = l := by
  refine .bind_get fun w₀ h₀ => ?_
  have hlookup : w₀.known.lookup u.id = some a := by rw [← hknown, ← h₀, ledger]
  simp only [hlookup]
  refine .ite (fun hne => .throw _ ?_) fun heq => .pure _ ?_
  · rintro w rfl
    exact ⟨⟨hne, rfl⟩, h₀⟩
  · rintro w rfl
    rw [not_or, Decidable.not_not, Decidable.not_not] at heq
    exact ⟨heq, h₀⟩

/-- Where there is none, it is made, or the backend refuses. -/
theorem ensureRoom_new {u : StoredUnit} (hnew : l.known.lookup u.id = none) :
    Triple (fun w : Synchronized (Logged γ) => w.ledger = l) (ensureRoom u)
      (fun _ w => w.ledger = l.create u)
      fun e w => w.ledger = l.note (Ledger.creation u) (.error e) := by
  refine .bind_get fun w₀ h₀ => ?_
  have hlookup : w₀.known.lookup u.id = none := by rw [← hnew, ← h₀, ledger]
  simp only [hlookup]
  have hcreate := onBackend_ledger (γ := γ) (l := l) (Ledger.creation u)
  refine .bind (hcreate.pre fun _ h => h ▸ h₀) fun _ => .modify ?_
  intro w hw
  show { w.ledger with known := (u.id, .of u.kind u.elementSize) :: w.ledger.known } = _
  rw [hw]
  rfl

/-- Writing a unit comes to one of the cases. -/
theorem write_written (u : StoredUnit) :
    Triple (fun w : Synchronized (Logged γ) => w.ledger = l) (write u)
      (fun _ w => Written l u (.ok ()) w.ledger) fun e w => Written l u (.error e) w.ledger := by
  refine .ite (fun hempty => .pure _ ?_) fun h => .bind_get fun w₀ h₀ => ?_
  · rintro w rfl
    exact .empty hempty
  have hclosed : w₀.closed = l.closed := by rw [← h₀, ledger]
  refine .ite (fun hc => .throw _ ?_) fun hopen => ?_
  · rintro w rfl
    rw [h₀]
    exact .closed h (hclosed ▸ hc)
  replace hopen : l.closed = false := by rwa [Bool.not_eq_true, hclosed] at hopen
  cases hlookup : l.known.lookup u.id with
  | some a =>
    refine .bind (((ensureRoom_known hlookup).pre fun _ hw => hw ▸ h₀).imp_error ?_)
      fun _ => .lift fun heq => (onBackend_ledger (.writeUnit u)).imp ?_ ?_
    · rintro _ w ⟨⟨hne, rfl⟩, hw⟩
      exact hw ▸ .layout h hopen a hlookup hne
    all_goals
      intro _ w hw
      exact hw ▸ .stored h hopen a hlookup heq _
  | none =>
    refine .bind (((ensureRoom_new hlookup).pre fun _ hw => hw ▸ h₀).imp_error ?_)
      fun _ => (onBackend_ledger (.writeUnit u)).imp ?_ ?_
    · intro e w hw
      exact hw ▸ .refused h hopen hlookup e
    all_goals
      intro _ w hw
      exact hw ▸ .created h hopen hlookup _

end Synchronized

end PulseDaq
