import Mathlib.Algebra.Order.Ring.Nat
import PulseDaq.Proofs.Storage.Independence
import PulseDaq.Proofs.Storage.Stored

/-!
# Counting instead of storing

A writer that only counts comes to the totals of what a writer over a backend has stored, as long as
this one takes all that it is given.

* `WriterCall.mem_answers_iff`: a call among others is answered by the writer that those before it
  have left.
* `BackendCall.NeverFails`: a backend that takes everything. A writer over it only fails by itself
  (`Synchronized.answers_ok_of_rejectsNone`).
* `WriterCall.OneLayout`: the calls that such a writer takes (`Synchronized.rejectsNone_iff`).
* `Totals.of`: the totals of some units. One call that is answered well adds its unit to the totals
  and to the log alike (`Answered.counted`), and so do many (`Synchronized.counted_run`).
* `Totals.counts_stored`: the main result.
-/

namespace PulseDaq

/-! ## Calls and answers -/

/-- With such an error a writer rejects a call by itself; the others are its backend's. -/
def WriterError.isRejection : WriterError → Bool
  | mixed | closed | layout .. => true
  | io .. | alreadyExists .. => false

/-- The events that a unit is made of are of its layout. -/
theorem StoredUnit.Of.mem_layouts_iff {events : List Event} {id timestamp : UInt64} {u : StoredUnit}
    (h : u.Of events id timestamp) (hne : u.elements ≠ 0) {x : RecordKind × Nat} :
    x ∈ events.map (fun e => (e.kind, e.elementSize)) ↔ x = (u.kind, u.elementSize) := by
  have hsome : events ≠ [] := fun hnil => hne (by rw [h.elements_eq, hnil, List.length_nil])
  obtain ⟨first, hfirst⟩ := List.exists_mem_of_ne_nil events hsome
  have hlayout : ∀ e ∈ events, (e.kind, e.elementSize) = (u.kind, u.elementSize) :=
    fun e he => Prod.ext (h.layout e he).1 (h.layout e he).2
  rw [List.mem_map]
  constructor
  · rintro ⟨e, he, rfl⟩
    exact hlayout e he
  · rintro rfl
    exact ⟨first, hfirst, hlayout first hfirst⟩

namespace WriterCall

/-- The records for one digitizer are all of one layout. -/
def OneLayout (calls : List WriterCall) : Prop :=
  ∀ c ∈ calls, ∀ c' ∈ calls, c.digitizer? = c'.digitizer? →
    ∀ x ∈ c.layouts, ∀ y ∈ c'.layouts, x = y

instance (calls : List WriterCall) : Decidable (OneLayout calls) :=
  inferInstanceAs (Decidable (∀ c ∈ calls, ∀ c' ∈ calls, c.digitizer? = c'.digitizer? →
    ∀ x ∈ c.layouts, ∀ y ∈ c'.layouts, x = y))

section

variable {ω : Type} [DataWriter ω]

/-- No call is answered by a rejection. -/
def RejectsNone (w : ω) (calls : List WriterCall) : Prop :=
  ∀ c e, (c, .error e) ∈ answers w calls → e.isRejection = false

theorem run_append (w : ω) (before behind : List WriterCall) :
    run w (before ++ behind) = run (run w before) behind :=
  List.foldl_append

/-- A call is answered by the writer that the calls before it have left. -/
theorem mem_answers_iff {w : ω} {calls : List WriterCall} {c : WriterCall}
    {r : Except WriterError Unit} :
    (c, r) ∈ answers w calls ↔
      ∃ before behind, calls = before ++ c :: behind ∧ c.answer (run w before) = r := by
  induction calls generalizing w with
  | nil => simp [answers]
  | cons first calls ih =>
    rw [answers, List.mem_cons, Prod.mk.injEq, ih]
    constructor
    · rintro (⟨rfl, rfl⟩ | ⟨before, behind, rfl, rfl⟩)
      · exact ⟨[], calls, rfl, rfl⟩
      · exact ⟨first :: before, behind, rfl, rfl⟩
    · rintro ⟨before, behind, hcalls, rfl⟩
      cases before with
      | nil =>
        cases hcalls
        exact .inl ⟨rfl, rfl⟩
      | cons _ before =>
        cases hcalls
        exact .inr ⟨before, behind, rfl, rfl⟩

/-- Every call is answered. -/
theorem exists_mem_answers (w : ω) {calls : List WriterCall} {c : WriterCall} (h : c ∈ calls) :
    ∃ r, (c, r) ∈ answers w calls := by
  obtain ⟨before, behind, hcalls⟩ := List.append_of_mem h
  exact ⟨_, mem_answers_iff.2 ⟨before, behind, hcalls, rfl⟩⟩

end

/-- The records that are to be written are of the layout of their unit. -/
theorem mem_layouts_iff {c : WriterCall} {u : StoredUnit} (h : c.unit = .ok (some u))
    (hne : u.elements ≠ 0) {x : RecordKind × Nat} :
    x ∈ c.layouts ↔ x = (u.kind, u.elementSize) := by
  cases c with
  | addDigitizer id => cases h
  | close => cases h
  | writeBuffer kind buffer id timestamp =>
    cases h
    exact List.mem_replicate.trans (and_iff_right hne)
  | writeSet events id timestamp => exact (StoredUnit.of_ofEvents h).mem_layouts_iff hne
  | writeEvents events id timestamp => exact (StoredUnit.of_ofEvents h).mem_layouts_iff hne

end WriterCall

/-! ## A backend that never fails -/

/-- The backend answers every call well, whatever it has been asked before. -/
def BackendCall.NeverFails {γ : Type} [Backend γ] (g : γ) : Prop :=
  ∀ before c, answer (run g before) c = .ok ()

section

variable {γ : Type} [Backend γ] {g : γ}

/-- The backend is what the logged calls have made of `g`, and has answered all of them well. -/
structure Logged.Served (g : γ) (l : Logged γ) : Prop where
  backend_eq : l.backend = BackendCall.run g l.log.calls
  answered : ∀ entry ∈ l.log, entry.2 = .ok ()

theorem Logged.Served.perform (hg : BackendCall.NeverFails g) (c : BackendCall) :
    Preserves (Served g) (c.perform (γ := Logged γ)) := by
  intro l hl
  have hanswer : c.answer l.backend = .ok () := by rw [hl.backend_eq, hg]
  rw [perform_eq, note_eq, hanswer]
  refine ⟨?_, List.forall_mem_cons.2 ⟨rfl, hl.answered⟩⟩
  rw [BackendLog.run_calls_cons, hl.backend_eq]

namespace Synchronized

variable {calls : List WriterCall}

theorem served_run (hg : BackendCall.NeverFails g) (calls : List WriterCall) :
    (WriterCall.run (logged g) calls).backend.Served g :=
  run_preserves (Logged.Served.perform hg) ⟨rfl, fun _ h => by cases h⟩ calls

/-- Over a backend that never fails, only a rejection is not answered well. -/
theorem answers_ok_of_rejectsNone (hg : BackendCall.NeverFails g)
    (h : WriterCall.RejectsNone (logged g) calls) :
    ∀ a ∈ WriterCall.answers (logged g) calls, a.2 = .ok () := by
  rintro ⟨c, r⟩ ha
  obtain ⟨before, behind, rfl, hr⟩ := WriterCall.mem_answers_iff.1 ha
  cases r with
  | ok _ => rfl
  | error e =>
    have hanswered := answered_after (WriterCall.run (logged g) before) c
    rw [hr] at hanswered
    obtain ⟨-, hrejection⟩ | ⟨call, hhead⟩ := hanswered.of_error
    · have hnone := h c e ha
      obtain rfl | rfl | ⟨id, kind, size, kind', size', rfl⟩ := hrejection
      all_goals cases hnone
    · have hserved := (served_run hg (before ++ [c])).answered
      rw [WriterCall.run_append] at hserved
      cases hserved _ (List.mem_of_head? hhead)

/-! ## Calls that are taken -/

/-- Records that are taken are in the log. -/
theorem stored_of_answered {w : Synchronized (Logged γ)} {c : WriterCall}
    (h : (c, .ok ()) ∈ WriterCall.answers w calls) (hne : c.layouts ≠ []) :
    ∃ u, c.unit = .ok (some u) ∧
      (.writeUnit u, .ok ()) ∈ (WriterCall.run w calls).backend.log := by
  obtain ⟨before, behind, rfl, hr⟩ := WriterCall.mem_answers_iff.1 h
  have hanswered := answered_after (WriterCall.run w before) c
  rw [hr] at hanswered
  obtain ⟨u, hunit, hhead⟩ := hanswered.of_ok hne
  have hsuffix := suffix_run (c.after (WriterCall.run w before)) behind
  rw [WriterCall.run_append]
  exact ⟨u, hunit, hsuffix.mem (List.mem_of_head? hhead)⟩

/-- Records that are taken are of the layout for which there is room. -/
theorem room_of_answered {c : WriterCall} {x : RecordKind × Nat}
    (h : (c, .ok ()) ∈ WriterCall.answers (logged g) calls) (hx : x ∈ c.layouts) :
    ∃ id a, c.digitizer? = some id ∧
      (.createDigitizer id a, .ok ()) ∈ (WriterCall.run (logged g) calls).backend.log ∧
      x = (a.kind, a.elementSize) := by
  have hlawful := (sound_run (sound_logged g) calls).lawful
  have hne := List.ne_nil_of_mem hx
  obtain ⟨u, hunit, hlog⟩ := stored_of_answered h hne
  obtain ⟨later, earlier, hsplit⟩ := List.append_of_mem hlog
  obtain ⟨a, ha, hkind, hsize⟩ := hlawful.created_first later u _ earlier hsplit
  refine ⟨u.id, a, WriterCall.digitizer?_eq_of_unit hunit, ?_, ?_⟩
  · rw [hsplit]
    exact List.mem_append_right _ (.tail _ ha)
  · rw [hkind, hsize]
    exact (WriterCall.mem_layouts_iff hunit ((WriterCall.layouts_ne_nil_iff hunit).1 hne)).1 hx

theorem oneLayout_of_answers_ok
    (h : ∀ a ∈ WriterCall.answers (logged g) calls, a.2 = .ok ()) :
    WriterCall.OneLayout calls := by
  have hlawful := (sound_run (sound_logged g) calls).lawful
  have hanswer {c : WriterCall} (hc : c ∈ calls) :
      (c, .ok ()) ∈ WriterCall.answers (logged g) calls := by
    obtain ⟨r, hr⟩ := WriterCall.exists_mem_answers (logged g) hc
    obtain rfl : r = .ok () := h _ hr
    exact hr
  intro c hc c' hc' hsame x hx y hy
  obtain ⟨id, a, hid, ha, rfl⟩ := room_of_answered (hanswer hc) hx
  obtain ⟨id', a', hid', ha', rfl⟩ := room_of_answered (hanswer hc') hy
  rw [hid, hid'] at hsame
  cases hsame
  rw [hlawful.created_unique ha ha']

end Synchronized

end

namespace Answered

variable {l l' : Ledger} {c : WriterCall}

/-- Room is made for a digitizer by a call that has records of the layout for it. -/
theorem created {r r' : Except WriterError Unit} (h : Answered l c r l') {id : UInt64}
    {a : DigitizerAttributes} (ha : (.createDigitizer id a, r') ∈ l'.log) :
    (.createDigitizer id a, r') ∈ l.log ∨
      c.digitizer? = some id ∧ (a.kind, a.elementSize) ∈ c.layouts := by
  cases h with
  | nothing | mixed | closedBefore => exact .inl ha
  | closed =>
    cases ha with
    | tail _ ha => exact .inl ha
  | written _ u hunit r l' hw =>
    have hnew (hne : u.elements ≠ 0) {r : Except WriterError Unit}
        (heq : (.createDigitizer id a, r') = (Ledger.creation u, r)) :
        c.digitizer? = some id ∧ (a.kind, a.elementSize) ∈ c.layouts := by
      cases heq
      exact ⟨WriterCall.digitizer?_eq_of_unit hunit, (WriterCall.mem_layouts_iff hunit hne).2 rfl⟩
    cases hw with
    | empty | closed | layout => exact .inl ha
    | stored =>
      cases ha with
      | tail _ ha => exact .inl ha
    | refused hne =>
      obtain heq | ha := List.mem_cons.1 ha
      · exact .inr (hnew hne heq)
      · exact .inl ha
    | created hne =>
      obtain ⟨⟨⟩⟩ | ha := List.mem_cons.1 ha
      obtain heq | ha := List.mem_cons.1 ha
      · exact .inr (hnew hne heq)
      · exact .inl ha

/-- An open writer whose backend has not failed takes records that are alike, unless there is room
for others. -/
theorem layout_of_error {e : WriterError} (h : Answered l c (.error e) l')
    (hserved : ∀ entry ∈ l'.log, entry.2 = .ok ()) (hopen : l.closed = false) (hne : c ≠ .close)
    (halike : c.Alike) :
    ∃ id a x, c.digitizer? = some id ∧ l.known.lookup id = some a ∧ x ∈ c.layouts ∧
      x ≠ (a.kind, a.elementSize) := by
  cases h with
  | mixed _ hunit =>
    obtain ⟨-, hnone | ⟨u, hu, -⟩⟩ | ⟨-, -, u, hu, -⟩ | ⟨hmixed, -⟩ := c.unit_cases
    · cases hunit.symm.trans hnone
    · cases hunit.symm.trans hu
    · cases hunit.symm.trans hu
    · exact absurd halike hmixed
  | closed hc => exact absurd hc hne
  | written _ u hunit r l' hw =>
    cases hw with
    | closed _ hclosed =>
      rw [hopen] at hclosed
      cases hclosed
    | stored | refused | created => cases hserved _ List.mem_cons_self
    | layout hsome _ a hknown hother =>
      refine ⟨u.id, a, _, WriterCall.digitizer?_eq_of_unit hunit, hknown,
        (WriterCall.mem_layouts_iff hunit hsome).2 rfl, fun heq => ?_⟩
      obtain ⟨hkind, hsize⟩ := Prod.mk.inj heq
      exact hother.elim (fun hne => hne hkind.symm) fun hne => hne hsize.symm

end Answered

namespace Synchronized

variable {γ : Type} [Backend γ] {g : γ} {calls : List WriterCall}

theorem created_run {w : Synchronized (Logged γ)} {id : UInt64} {a : DigitizerAttributes}
    {r : Except WriterError Unit}
    (ha : (.createDigitizer id a, r) ∈ (WriterCall.run w calls).backend.log) :
    (.createDigitizer id a, r) ∈ w.backend.log ∨
      ∃ c ∈ calls, c.digitizer? = some id ∧ (a.kind, a.elementSize) ∈ c.layouts := by
  induction calls generalizing w with
  | nil => exact .inl ha
  | cons c calls ih =>
    obtain ha | ⟨c', hc', hcreated⟩ := ih ha
    · exact ((answered_after w c).created ha).imp_right fun h => ⟨c, List.mem_cons_self, h⟩
    · exact .inr ⟨c', .tail _ hc', hcreated⟩

/-- Records of one layout for each digitizer are taken, as long as the backend never fails. -/
theorem answers_ok_of_oneLayout (hg : BackendCall.NeverFails g) (hopen : .close ∉ calls)
    (h : WriterCall.OneLayout calls) :
    ∀ a ∈ WriterCall.answers (logged g) calls, a.2 = .ok () := by
  rintro ⟨c, r⟩ ha
  obtain ⟨before, behind, rfl, hr⟩ := WriterCall.mem_answers_iff.1 ha
  cases r with
  | ok _ => rfl
  | error e =>
    rw [List.mem_append, List.mem_cons, not_or, not_or] at hopen
    have hc : c ∈ before ++ c :: behind := List.mem_append_right _ List.mem_cons_self
    have hanswered := answered_after (WriterCall.run (logged g) before) c
    have hserved := (served_run hg (before ++ [c])).answered
    rw [WriterCall.run_append] at hserved
    rw [hr] at hanswered
    obtain ⟨id, a, x, hid, hknown, hx, hother⟩ := hanswered.layout_of_error hserved
      (closed_run (logged g) hopen.1) (Ne.symm hopen.2.1) (h c hc c hc rfl)
    -- The room that `c` does not fit was made by a call before it.
    have hsound := sound_run (sound_logged g) before
    obtain hnever | ⟨c', hc', hid', hx'⟩ := created_run (hsound.created_of_lookup hknown)
    · cases hnever
    · exact absurd (h c hc c' (List.mem_append_left _ hc') (hid.trans hid'.symm) x hx _ hx') hother

/-- A writer over a backend that never fails rejects nothing exactly if the records for each
digitizer are of one layout. -/
theorem rejectsNone_iff (hg : BackendCall.NeverFails g) (hopen : .close ∉ calls) :
    WriterCall.RejectsNone (logged g) calls ↔ WriterCall.OneLayout calls := by
  refine ⟨fun h => oneLayout_of_answers_ok (answers_ok_of_rejectsNone hg h), fun h c e he => ?_⟩
  cases answers_ok_of_oneLayout hg hopen h _ he

end Synchronized

/-! ## Totals -/

/-- The units that the backend has been asked to store, the latest first. -/
def BackendLog.units (log : BackendLog) : List StoredUnit :=
  log.filterMap fun
    | (.writeUnit u, _) => some u
    | _ => none

/-- The bytes of some records are as many as the records take one by one. -/
theorem Event.length_encodeAll_eq_foldr (events : List Event) :
    (encodeAll events).length = events.foldr (fun e n => e.elementSize + n) 0 := by
  induction events with
  | nil => rfl
  | cons e events ih =>
    rw [List.foldr_cons, ← ih, encodeAll, List.flatMap_cons, List.length_append, length_encode]
    rfl

namespace Totals

/-- The totals of some units. -/
def of (units : List StoredUnit) : Totals where
  units := UInt64.ofNat units.length
  elements := UInt64.ofNat (units.map (·.elements)).sum
  bytes := UInt64.ofNat (units.map (·.bytes.length)).sum

/-- A unit is counted unless it is empty. -/
theorem add_of (u : StoredUnit) (units : List StoredUnit) :
    (of units).add u.elements u.bytes.length =
      if u.elements = 0 then of units else of (u :: units) := by
  unfold add
  split
  · rfl
  · rw [of, of, Totals.mk.injEq, List.map_cons, List.sum_cons, List.map_cons, List.sum_cons]
    refine ⟨(UInt64.ofNat_add _ 1).symm, ?_, ?_⟩
    all_goals rw [UInt64.ofNat_add, UInt64.add_comm]

/-- Events count as the unit that they make. -/
theorem addEvents_eq {events : List Event} {id timestamp : UInt64} {unit : Option StoredUnit}
    (h : StoredUnit.ofEvents events id timestamp = .ok unit) (t : Totals) :
    t.addEvents events = unit.elim t fun u => t.add u.elements u.bytes.length := by
  cases unit with
  | none =>
    obtain ⟨hnil, -⟩ | ⟨-, -, u, hu, -⟩ | ⟨-, hu⟩ := StoredUnit.ofEvents_cases events id timestamp
    · rw [List.map_eq_nil_iff.1 hnil]
      rfl
    all_goals cases h.symm.trans hu
  | some u =>
    have hof := StoredUnit.of_ofEvents h
    rw [addEvents, ← Event.length_encodeAll_eq_foldr, ← hof.elements_eq, ← hof.bytes_eq]
    rfl

/-- A call counts its unit, if it has one. -/
theorem after_eq {c : WriterCall} {unit : Option StoredUnit} (h : c.unit = .ok unit) (t : Totals) :
    c.after t = unit.elim t fun u => t.add u.elements u.bytes.length := by
  cases c with
  | addDigitizer | close | writeBuffer =>
    cases h
    rfl
  | writeSet events id timestamp => exact addEvents_eq h t
  | writeEvents events id timestamp => exact addEvents_eq h t

theorem answer_eq (t : Totals) (c : WriterCall) : c.answer t = .ok () := by
  cases c <;> rfl

end Totals

/-- A call that is answered well adds the same to the totals as to the log. -/
theorem Answered.counted {l l' : Ledger} {c : WriterCall} (h : Answered l c (.ok ()) l') :
    c.after (Totals.of l.log.units) = Totals.of l'.log.units := by
  generalize hr : (.ok () : Except WriterError Unit) = r at h
  cases h with
  | nothing _ hunit => exact Totals.after_eq hunit _
  | mixed => cases hr
  | closedBefore hc =>
    subst hc
    rfl
  | closed hc =>
    subst hc
    rfl
  | written _ u hunit r l' hw =>
    rw [Totals.after_eq hunit, Option.elim_some, Totals.add_of]
    cases hw with
    | closed | layout | refused => cases hr
    | empty hempty => rw [if_pos hempty]
    | stored hne => exact if_neg hne
    | created hne => exact if_neg hne

namespace Synchronized

variable {γ : Type} [Backend γ]

/-- If all calls are answered well, the totals grow as the log does. -/
theorem counted_run {w : Synchronized (Logged γ)} {calls : List WriterCall}
    (h : ∀ a ∈ WriterCall.answers w calls, a.2 = .ok ()) :
    WriterCall.run (Totals.of w.backend.log.units) calls =
      Totals.of (WriterCall.run w calls).backend.log.units := by
  induction calls generalizing w with
  | nil => rfl
  | cons c calls ih =>
    obtain ⟨hc, hrest⟩ := List.forall_mem_cons.1 h
    have hanswered := answered_after w c
    rw [show c.answer w = .ok () from hc] at hanswered
    show WriterCall.run (c.after (Totals.of w.ledger.log.units)) calls = _
    rw [hanswered.counted]
    exact ih hrest

end Synchronized

/-! ## Main result -/

/-- **Counting instead of storing.** Take a backend that never fails and any calls of a writer but
closing it. A new writer over the backend rejects none of them exactly if the records for each
digitizer are of one layout. And if it rejects none, it answers all of them well, as does a new
writer that only counts, and what this one has counted are the units that the backend has been asked
to store, their records and their bytes, each modulo `2 ^ 64`. -/
theorem Totals.counts_stored {γ : Type} [Backend γ] {g : γ} (hg : BackendCall.NeverFails g)
    {calls : List WriterCall} (hopen : .close ∉ calls) :
    let storing : Synchronized γ := { backend := g }
    let counting : Totals := {}
    (WriterCall.RejectsNone storing calls ↔ WriterCall.OneLayout calls) ∧
      (WriterCall.RejectsNone storing calls →
        (∀ a ∈ WriterCall.answers storing calls, a.2 = .ok ()) ∧
        (∀ a ∈ WriterCall.answers counting calls, a.2 = .ok ()) ∧
        let stored := (WriterCall.run (Synchronized.logged g) calls).backend.log.units
        let counted := WriterCall.run counting calls
        counted.units.toNat = stored.length % 2 ^ 64 ∧
          counted.elements.toNat = (stored.map (·.elements)).sum % 2 ^ 64 ∧
          counted.bytes.toNat = (stored.map (·.bytes.length)).sum % 2 ^ 64) := by
  intro storing counting
  -- The log changes no answer.
  have hanswers : WriterCall.answers storing calls =
      WriterCall.answers (Synchronized.logged g) calls :=
    Synchronized.answers_forget (Synchronized.logged g) calls
  rw [WriterCall.RejectsNone, hanswers]
  refine ⟨Synchronized.rejectsNone_iff hg hopen, fun h => ?_⟩
  have hok := Synchronized.answers_ok_of_rejectsNone hg h
  refine ⟨hok, ?_, ?_⟩
  · rintro ⟨c, r⟩ ha
    obtain ⟨before, -, -, rfl⟩ := WriterCall.mem_answers_iff.1 ha
    exact answer_eq _ c
  · intro stored counted
    have hcounted : counted = of stored := Synchronized.counted_run hok
    rw [hcounted]
    exact ⟨UInt64.toNat_ofNat', UInt64.toNat_ofNat', UInt64.toNat_ofNat'⟩

namespace Ruled

/-- A backend with a rule that allows everything never fails. -/
theorem neverFails {b : Ruled} (h : ∀ before c, b.rule before c = .ok ()) :
    BackendCall.NeverFails b := by
  intro before c
  rw [answer_eq, run_eq]
  exact h _ _

/-- A backend that allows everything. -/
def lenient : Ruled where
  rule _ _ := .ok ()

/-- A buffer with two compact records, all of them zeros, and room for a third. -/
def twoRecords : RecordBuffer where
  capacityBytes := 26
  elementSize := RecordKind.compactSize
  headerSize := 2
  data := Array.replicate 18 0
  count := 2
  elementSize_pos := by decide
  header_le := by decide
  used_le := by decide
  size_le := by decide

def twoWaveforms : EventSet where
  toList := [.waveform { samples := [1, 2] }, .waveform { samples := [3, 4] }]
  sorted := by decide

/-- Two digitizers of different layouts, in each of the three ways, with empty writes between
them. An empty buffer is of no layout. -/
def withEmptyWrites : List WriterCall :=
  [.writeEvents [] 7 1, .writeBuffer .compact twoRecords 7 1,
    .writeBuffer .extended twoRecords.clear 7 2, .writeEvents [.compact { time := 5 }] 7 2,
    .writeSet { toList := [], sorted := .nil } 3 1, .writeSet twoWaveforms 3 1]

theorem withEmptyWrites_counted :
    let storing : Synchronized Ruled := { backend := lenient }
    let counted := WriterCall.run ({} : Totals) withEmptyWrites
    BackendCall.NeverFails lenient ∧ .close ∉ withEmptyWrites ∧
      WriterCall.RejectsNone storing withEmptyWrites ∧
      ¬WriterCall.RejectsNone storing (withEmptyWrites ++ [.writeEvents [.extended {}] 3 9]) ∧
      counted.units.toNat = 3 ∧ counted.elements.toNat = 5 ∧ counted.bytes.toNat = 92 := by
  intro storing counted
  have hlenient : BackendCall.NeverFails lenient := neverFails fun _ _ => rfl
  have hopen : .close ∉ withEmptyWrites := by simp [withEmptyWrites]
  obtain ⟨hrejects, htotals⟩ := Totals.counts_stored hlenient hopen
  have hnone := hrejects.2 (by decide +kernel)
  obtain ⟨-, -, hunits, helements, hbytes⟩ := htotals hnone
  refine ⟨hlenient, hopen, hnone, fun h => ?_, hunits.trans rfl, helements.trans rfl,
    hbytes.trans rfl⟩
  have hlayouts := (Totals.counts_stored hlenient (by simp [withEmptyWrites])).1.1 h
  exact absurd hlayouts (by decide +kernel)

end Ruled

end PulseDaq
