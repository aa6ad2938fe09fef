import PulseDaq.Proofs.Storage.Units

/-!
# The history of a writer

Calls of a writer in any order, whatever the backend answers, and the drop in the end.

* `Answered`: what one call of the writer can come to, case by case.
* `Ledger.Sound`: the invariant, kept by every call (`Answered.sound`) and so by a whole history
  (`Synchronized.sound_run`).
* `Synchronized.run_lawful`: the backend calls of a history, and the answers to what is called next.
-/

namespace PulseDaq

namespace WriterCall

/-- The kind and the size of each record that is to be written. -/
def layouts : WriterCall → List (RecordKind × Nat)
  | writeBuffer kind buffer _ _ => List.replicate buffer.count (kind, buffer.elementSize)
  | writeSet events _ _ => events.toList.map fun e => (e.kind, e.elementSize)
  | writeEvents events _ _ => events.map fun e => (e.kind, e.elementSize)
  | addDigitizer _ | close => []

/-- The records to be written are of one layout. -/
def Alike (c : WriterCall) : Prop :=
  ∀ x ∈ c.layouts, ∀ y ∈ c.layouts, x = y

/-- The unit that is to be written. -/
def unit : WriterCall → Except WriterError (Option StoredUnit)
  | writeBuffer kind buffer id timestamp => .ok (some (.ofBuffer kind buffer id timestamp))
  | writeSet events id timestamp => StoredUnit.ofEvents events.toList id timestamp
  | writeEvents events id timestamp => StoredUnit.ofEvents events id timestamp
  | addDigitizer _ | close => .ok none

end WriterCall

/-! ## The unit of a call -/

/-- Events make a unit if they are alike, and none if there is none. -/
theorem StoredUnit.ofEvents_cases (events : List Event) (id timestamp : UInt64) :
    let c := WriterCall.writeEvents events id timestamp
    c.layouts = [] ∧ ofEvents events id timestamp = .ok none ∨
      (c.layouts ≠ [] ∧ c.Alike ∧ ∃ u, ofEvents events id timestamp = .ok (some u) ∧ u.Whole) ∨
      ¬c.Alike ∧ ofEvents events id timestamp = .error .mixed := by
  cases events with
  | nil => exact .inl ⟨rfl, rfl⟩
  | cons e rest =>
    refine .inr ?_
    simp only [ofEvents]
    by_cases hall : (rest.all fun f => f.kind = e.kind ∧ f.elementSize = e.elementSize) = true
    · have hfit : ∀ f ∈ e :: rest, f.kind = e.kind ∧ f.elementSize = e.elementSize := by
        intro f hf
        rcases List.mem_cons.1 hf with rfl | hf
        · exact ⟨rfl, rfl⟩
        · exact of_decide_eq_true (List.all_eq_true.1 hall f hf)
      refine .inl ⟨nofun, fun x hx y hy => ?_, _, if_pos hall, Nat.succ_pos _, ?_⟩
      · obtain ⟨f, hf, rfl⟩ := List.mem_map.1 hx
        obtain ⟨g, hg, rfl⟩ := List.mem_map.1 hy
        rw [(hfit f hf).1, (hfit f hf).2, (hfit g hg).1, (hfit g hg).2]
      · exact Event.length_encodeAll fun f hf => (hfit f hf).2
    · refine .inr ⟨fun halike => hall (List.all_eq_true.2 fun f hf => ?_), if_neg hall⟩
      have heq := halike _ (List.mem_map_of_mem (List.mem_cons_of_mem e hf)) _
        (List.mem_map_of_mem (List.mem_cons_self (a := e) (l := rest)))
      exact decide_eq_true ⟨congrArg Prod.fst heq, congrArg Prod.snd heq⟩

/-- A call asks for nothing to be written, for a unit, or for records that are not alike. -/
theorem WriterCall.unit_cases (c : WriterCall) :
    c.layouts = [] ∧ (c.unit = .ok none ∨ ∃ u, c.unit = .ok (some u) ∧ u.elements = 0) ∨
      (c.layouts ≠ [] ∧ c.Alike ∧ ∃ u, c.unit = .ok (some u) ∧ u.Whole) ∨
      ¬c.Alike ∧ c.unit = .error .mixed := by
  cases c with
  | addDigitizer id => exact .inl ⟨rfl, .inl rfl⟩
  | close => exact .inl ⟨rfl, .inl rfl⟩
  | writeEvents events id timestamp =>
    exact (StoredUnit.ofEvents_cases events id timestamp).imp_left fun h => ⟨h.1, .inl h.2⟩
  | writeSet events id timestamp =>
    exact (StoredUnit.ofEvents_cases events.toList id timestamp).imp_left fun h => ⟨h.1, .inl h.2⟩
  | writeBuffer kind buffer id timestamp =>
    have hbytes := buffer.length_rawBytes
    by_cases hcount : buffer.count = 0
    · exact .inl ⟨by rw [layouts, hcount, List.replicate_zero], .inr ⟨_, rfl, hcount⟩⟩
    · refine .inr (.inl ⟨?_, fun x hx y hy => ?_, _, rfl, Nat.pos_of_ne_zero hcount, hbytes⟩)
      · simp [layouts, hcount]
      · rw [List.eq_of_mem_replicate hx, List.eq_of_mem_replicate hy]

theorem WriterCall.alike_of_layouts_nil {c : WriterCall} (h : c.layouts = []) : c.Alike := by
  intro x hx
  rw [h] at hx
  cases hx

theorem WriterCall.unit_of_layouts_nil {c : WriterCall} (h : c.layouts = []) :
    c.unit = .ok none ∨ ∃ u, c.unit = .ok (some u) ∧ u.elements = 0 := by
  obtain ⟨-, hunit⟩ | ⟨hne, -⟩ | ⟨hmixed, -⟩ := c.unit_cases
  · exact hunit
  · exact absurd h hne
  · exact absurd (alike_of_layouts_nil h) hmixed

theorem WriterCall.unit_of_alike {c : WriterCall} (hne : c.layouts ≠ []) (halike : c.Alike) :
    ∃ u, c.unit = .ok (some u) ∧ u.Whole := by
  obtain ⟨hnil, -⟩ | ⟨-, -, hunit⟩ | ⟨hmixed, -⟩ := c.unit_cases
  · exact absurd hnil hne
  · exact hunit
  · exact absurd halike hmixed

theorem WriterCall.unit_of_not_alike {c : WriterCall} (hmixed : ¬c.Alike) :
    c.unit = .error .mixed := by
  obtain ⟨hnil, -⟩ | ⟨-, halike, -⟩ | ⟨-, hunit⟩ := c.unit_cases
  · exact absurd (alike_of_layouts_nil hnil) hmixed
  · exact absurd halike hmixed
  · exact hunit

/-! ## One call -/

/-- What a call of a writer can come to: the answer, and the ledger behind it. -/
inductive Answered (l : Ledger) (c : WriterCall) : Except WriterError Unit → Ledger → Prop
  | nothing (h : c ≠ .close) (hunit : c.unit = .ok none) : Answered l c (.ok ()) l
  | mixed (h : c ≠ .close) (hunit : c.unit = .error .mixed) : Answered l c (.error .mixed) l
  | written (h : c ≠ .close) (u : StoredUnit) (hunit : c.unit = .ok (some u))
    (r : Except WriterError Unit) (l' : Ledger) (hwritten : Written l u r l') : Answered l c r l'
  | closedBefore (h : c = .close) (hclosed : l.closed = true) : Answered l c (.ok ()) l
  | closed (h : c = .close) (hopen : l.closed = false) (r : Except WriterError Unit) :
    Answered l c r ({ l with closed := true }.note .close r)

namespace Synchronized

variable {γ : Type} [Backend γ] {l : Ledger}

/-- Calls other than closing write their unit, if they have one. -/
theorem perform_eq_write {c : WriterCall} (h : c ≠ .close) :
    c.perform (ω := Synchronized γ) = do
      match ← ofExcept c.unit with
      | some u => write u
      | none => return := by
  cases c with
  | close => exact absurd rfl h
  | addDigitizer id => rfl
  | writeBuffer kind buffer id timestamp => rfl
  | writeSet events id timestamp => rfl
  | writeEvents events id timestamp => rfl

/-- Closing calls the backend the first time only. -/
theorem close_answered :
    Triple (fun w : Synchronized (Logged γ) => w.ledger = l) close
      (fun _ w => Answered l .close (.ok ()) w.ledger)
      fun e w => Answered l .close (.error e) w.ledger := by
  refine .bind_get fun w₀ h₀ => ?_
  have hclosed : w₀.closed = l.closed := by rw [← h₀, ledger]
  refine .ite (fun hc => .pure _ ?_) fun hopen => ?_
  · rintro w rfl
    rw [h₀]
    exact .closedBefore rfl (hclosed ▸ hc)
  replace hopen : l.closed = false := by rwa [Bool.not_eq_true, hclosed] at hopen
  have hclose := onBackend_ledger (γ := γ) (l := { l with closed := true }) .close
  refine .bind_modify (hclose.imp ?_ ?_) ?_
  · intro _ w hw
    exact hw ▸ .closed rfl hopen _
  · intro _ w hw
    exact hw ▸ .closed rfl hopen _
  · rintro w rfl
    rw [← h₀]
    rfl

/-- A call of the writer comes to one of the cases. -/
theorem perform_answered (c : WriterCall) :
    Triple (fun w : Synchronized (Logged γ) => w.ledger = l) c.perform
      (fun _ w => Answered l c (.ok ()) w.ledger) fun e w => Answered l c (.error e) w.ledger := by
  by_cases h : c = .close
  · subst h
    exact close_answered
  rw [perform_eq_write h]
  have hcases := c.unit_cases
  cases hunit : c.unit with
  | error e =>
    obtain rfl : e = .mixed := by
      rw [hunit] at hcases
      simp_all
    rintro w rfl
    exact .mixed h hunit
  | ok unit =>
    cases unit with
    | none =>
      rintro w rfl
      exact .nothing h hunit
    | some u =>
      refine (write_written (γ := γ) (l := l) u).imp ?_ ?_
      all_goals
        intro _ w hw
        exact .written h u hunit _ _ hw

end Synchronized

/-! ## The invariant -/

/-- The digitizer that a call has made room for. -/
def BackendCall.created? : BackendCall × Except WriterError Unit →
    Option (UInt64 × DigitizerAttributes)
  | (createDigitizer id a, .ok _) => some (id, a)
  | _ => none

theorem BackendCall.created?_eq_some_iff {entry : BackendCall × Except WriterError Unit}
    {id : UInt64} {a : DigitizerAttributes} :
    created? entry = some (id, a) ↔ entry = (createDigitizer id a, .ok ()) := by
  obtain ⟨c, r⟩ := entry
  cases c with
  | createDigitizer id' a' => cases r <;> simp [created?]
  | writeUnit u => simp [created?]
  | close => simp [created?]

/-- A writer knows what its backend has done. -/
structure Ledger.Sound (l : Ledger) : Prop where
  lawful : LawfulLog l.log
  known : l.known = l.log.filterMap BackendCall.created?
  closed : l.closed = true ↔ ∃ r, (.close, r) ∈ l.log

namespace Ledger.Sound

variable {l : Ledger}

theorem mem_known_iff (h : l.Sound) {id : UInt64} {a : DigitizerAttributes} :
    (id, a) ∈ l.known ↔ (.createDigitizer id a, .ok ()) ∈ l.log := by
  simp only [h.known, List.mem_filterMap, BackendCall.created?_eq_some_iff, exists_eq_right]

theorem created_of_lookup (h : l.Sound) {id : UInt64} {a : DigitizerAttributes}
    (hknown : l.known.lookup id = some a) : (.createDigitizer id a, .ok ()) ∈ l.log := by
  obtain ⟨front, back, hsplit, -⟩ := List.lookup_eq_some_iff.1 hknown
  exact h.mem_known_iff.1 (hsplit ▸ List.mem_append_right front List.mem_cons_self)

/-- What there is room for is what has been created. -/
theorem lookup_eq (h : l.Sound) {id : UInt64} {a : DigitizerAttributes}
    (ha : (.createDigitizer id a, .ok ()) ∈ l.log) : l.known.lookup id = some a := by
  cases hlookup : l.known.lookup id with
  | none =>
    have hne := List.lookup_eq_none_iff.1 hlookup _ (h.mem_known_iff.2 ha)
    simp at hne
  | some a' => rw [h.lawful.created_unique ha (h.created_of_lookup hlookup)]

theorem open_log (h : l.Sound) (hopen : l.closed = false) : ∀ e ∈ l.log, e.1 ≠ .close := by
  rintro ⟨c, r⟩ he rfl
  rw [h.closed.2 ⟨r, he⟩] at hopen
  cases hopen

/-- A call that is admissible can be made unless the writer is closed. -/
theorem note (h : l.Sound) (hopen : l.closed = false) {c : BackendCall} (hc : c.Admissible l.log)
    (r : Except WriterError Unit) (hnot : BackendCall.created? (c, r) = none) (hne : c ≠ .close) :
    (l.note c r).Sound where
  lawful := h.lawful.cons hc (h.open_log hopen) r
  known := by
    show l.known = ((c, r) :: l.log).filterMap BackendCall.created?
    rw [List.filterMap_cons, hnot, h.known]
  closed := by
    rw [Ledger.note, h.closed]
    simp [hne.symm]

/-- The first unit of a digitizer finds no room for it. -/
theorem admissible_creation (h : l.Sound) {u : StoredUnit}
    (hnew : l.known.lookup u.id = none) : (Ledger.creation u).Admissible l.log := by
  intro a ha
  have hne := List.lookup_eq_none_iff.1 hnew _ (h.mem_known_iff.2 ha)
  simp at hne

/-- There is room for a digitizer after its creation. -/
theorem create (h : l.Sound) (hopen : l.closed = false) {u : StoredUnit}
    (hnew : l.known.lookup u.id = none) : (l.create u).Sound where
  lawful := h.lawful.cons (h.admissible_creation hnew) (h.open_log hopen) _
  known := by
    show _ :: l.known = _ :: l.log.filterMap BackendCall.created?
    rw [h.known]
  closed := by
    show l.closed = true ↔ _
    rw [h.closed]
    simp [Ledger.create, Ledger.note, Ledger.creation]

/-- A unit fits the digitizer that there is room for. -/
theorem admissible_write (h : l.Sound) {u : StoredUnit} (hu : u.Whole) {a : DigitizerAttributes}
    (hknown : l.known.lookup u.id = some a)
    (heq : a.kind = u.kind ∧ a.elementSize = u.elementSize) :
    (BackendCall.writeUnit u).Admissible l.log :=
  ⟨hu, a, h.created_of_lookup hknown, heq⟩

end Ledger.Sound

/-- Writing a whole unit keeps the invariant. -/
theorem Written.sound {l l' : Ledger} {u : StoredUnit} {r : Except WriterError Unit}
    (h : l.Sound) (hu : u.elements ≠ 0 → u.Whole) (hw : Written l u r l') : l'.Sound := by
  cases hw with
  | empty | closed | layout => exact h
  | stored hne hopen a hknown heq r =>
    exact h.note hopen (h.admissible_write (hu hne) hknown heq) r rfl nofun
  | refused hne hopen hnew e =>
    exact h.note hopen (h.admissible_creation hnew) (.error e) rfl nofun
  | created hne hopen hnew r =>
    have hcreated := h.create hopen hnew
    have hknown : (l.create u).known.lookup u.id = some (.of u.kind u.elementSize) :=
      List.lookup_cons_self
    exact hcreated.note hopen (hcreated.admissible_write (hu hne) hknown ⟨rfl, rfl⟩) r rfl nofun

/-- Every call keeps the invariant. -/
theorem Answered.sound {l l' : Ledger} {c : WriterCall} {r : Except WriterError Unit}
    (h : l.Sound) (hc : Answered l c r l') : l'.Sound := by
  cases hc with
  | nothing | mixed | closedBefore => exact h
  | written hne u hunit r l' hw =>
    refine hw.sound h fun hnonempty => ?_
    have hcases := c.unit_cases
    rw [hunit] at hcases
    simp_all
  | closed hc hopen r =>
    have hadmissible : BackendCall.close.Admissible l.log := trivial
    refine ⟨h.lawful.cons hadmissible (h.open_log hopen) r, h.known, ?_⟩
    simp [Ledger.note]

/-! ## What the cases say -/

namespace Answered

variable {l l' : Ledger} {c : WriterCall} {r : Except WriterError Unit}

/-- Without records nothing is asked of the backend. -/
theorem of_layouts_nil (h : Answered l c r l') (hne : c ≠ .close) (hnil : c.layouts = []) :
    r = .ok () ∧ l' = l := by
  have hunit := WriterCall.unit_of_layouts_nil hnil
  cases h with
  | nothing => exact ⟨rfl, rfl⟩
  | mixed _ herror =>
    rw [herror] at hunit
    obtain h | ⟨u, h, -⟩ := hunit
    all_goals cases h
  | written _ u hu r l' hw =>
    rw [hu] at hunit
    obtain h | ⟨u, h, hempty⟩ := hunit
    all_goals cases h
    exact hw.of_empty hempty
  | closedBefore h | closed h => exact absurd h hne

/-- Records that are not alike are rejected. -/
theorem of_not_alike (h : Answered l c r l') (hmixed : ¬c.Alike) :
    r = .error .mixed ∧ l' = l := by
  have hunit := WriterCall.unit_of_not_alike hmixed
  cases h with
  | mixed => exact ⟨rfl, rfl⟩
  | nothing _ hu | written _ _ hu =>
    rw [hunit] at hu
    cases hu
  | closedBefore h | closed h =>
    rw [h] at hmixed
    exact absurd (WriterCall.alike_of_layouts_nil rfl) hmixed

/-- A closed writer rejects records. -/
theorem of_closed (h : Answered l c r l') (hclosed : l.closed = true) (hne : c.layouts ≠ [])
    (halike : c.Alike) : r = .error .closed ∧ l' = l := by
  obtain ⟨u, hunit, hwhole⟩ := WriterCall.unit_of_alike hne halike
  cases h with
  | nothing _ hu | mixed _ hu =>
    rw [hunit] at hu
    cases hu
  | written _ u' hu r l' hw =>
    rw [hunit] at hu
    cases hu
    exact hw.of_closed (Nat.ne_of_gt hwhole.1) hclosed
  | closedBefore h | closed h =>
    rw [h] at hne
    exact absurd rfl hne

/-- Records are answered for once their unit is stored. -/
theorem of_ok (h : Answered l c (.ok ()) l') (hne : c.layouts ≠ []) :
    ∃ u, c.unit = .ok (some u) ∧ l'.log.head? = some (.writeUnit u, .ok ()) := by
  obtain ⟨hnil, -⟩ | ⟨-, -, u, hunit, hwhole⟩ | ⟨-, hmixed⟩ := c.unit_cases
  · exact absurd hnil hne
  · refine ⟨u, hunit, ?_⟩
    cases h with
    | nothing _ hu =>
      rw [hunit] at hu
      cases hu
    | written _ u' hu r l' hw =>
      rw [hunit] at hu
      cases hu
      cases hw with
      | empty hempty => exact absurd hempty (Nat.ne_of_gt hwhole.1)
      | stored => rfl
      | created => rfl
    | closedBefore h | closed h =>
      rw [h] at hne
      exact absurd rfl hne
  · cases h with
    | nothing _ hu | written _ _ hu =>
      rw [hmixed] at hu
      cases hu
    | closedBefore h | closed h =>
      rw [h] at hne
      exact absurd rfl hne

/-- An error is a rejection or the backend's answer to the last call. -/
theorem of_error {e : WriterError} (h : Answered l c (.error e) l') :
    l' = l ∧ (e = .mixed ∨ e = .closed ∨
        ∃ id kind size kind' size', e = .layout id kind size kind' size') ∨
      ∃ call, l'.log.head? = some (call, .error e) := by
  cases h with
  | mixed => exact .inl ⟨rfl, .inl rfl⟩
  | written hne u hunit r l' hw =>
    cases hw with
    | closed => exact .inl ⟨rfl, .inr (.inl rfl)⟩
    | layout => exact .inl ⟨rfl, .inr (.inr ⟨_, _, _, _, _, rfl⟩)⟩
    | stored => exact .inr ⟨_, rfl⟩
    | refused => exact .inr ⟨_, rfl⟩
    | created => exact .inr ⟨_, rfl⟩
  | closed => exact .inr ⟨_, rfl⟩

end Answered

/-! ## Histories -/

/-- What a writer answers to a call, and what that call asks of its backend. -/
structure LawfulAnswer {γ : Type} [Backend γ] (w : Synchronized (Logged γ)) (c : WriterCall) :
    Prop where
  /-- An announcement, or a write without records: nothing is asked. -/
  nothing : c ≠ .close → c.layouts = [] →
    ∃ w', c.perform w = .ok () w' ∧ w'.backend.log = w.backend.log
  /-- Records that are not alike: nothing is asked. -/
  mixed : ¬c.Alike → ∃ w', c.perform w = .error .mixed w' ∧ w'.backend.log = w.backend.log
  /-- Records for a closed writer: nothing is asked. -/
  closed : (∃ r, (.close, r) ∈ w.backend.log) → c.layouts ≠ [] → c.Alike →
    ∃ w', c.perform w = .error .closed w' ∧ w'.backend.log = w.backend.log
  /-- Records are answered for by the backend, which has stored their unit in the last call. -/
  stored : c.layouts ≠ [] → ∀ w', c.perform w = .ok () w' →
    ∃ u, c.unit = .ok (some u) ∧ w'.backend.log.head? = some (.writeUnit u, .ok ())
  /-- Nothing is asked by what the writer rejects; other errors are the backend's own, answered to
  the last call. -/
  failed : ∀ e w', c.perform w = .error e w' →
    w'.backend.log = w.backend.log ∧
        (e = .mixed ∨ e = .closed ∨
          ∃ id kind size kind' size', e = .layout id kind size kind' size') ∨
      ∃ call, w'.backend.log.head? = some (call, .error e)

namespace Synchronized

variable {γ : Type} [Backend γ]

/-- A new writer over a logged backend. -/
def logged (backend : γ) : Synchronized (Logged γ) where
  backend := { backend }

theorem sound_after {w : Synchronized (Logged γ)} (h : w.ledger.Sound) (c : WriterCall) :
    (c.after w).ledger.Sound := by
  have ht := perform_answered (γ := γ) (l := w.ledger) c
  obtain ⟨_, hrun⟩ | ⟨_, hrun⟩ := WriterCall.perform_after w c
  · exact (ht.ok rfl hrun).sound h
  · exact (ht.error rfl hrun).sound h

/-- A history keeps the invariant. -/
theorem sound_run {w : Synchronized (Logged γ)} (h : w.ledger.Sound) (calls : List WriterCall) :
    (WriterCall.run w calls).ledger.Sound := by
  induction calls generalizing w with
  | nil => exact h
  | cons c calls ih => exact ih (sound_after h c)

omit [Backend γ] in
theorem sound_logged (backend : γ) : (logged backend).ledger.Sound where
  lawful := .nil
  known := rfl
  closed := by simp [ledger, logged]

omit [Backend γ] in
/-- The digitizers are those that there is room for, in strictly ascending order. -/
theorem digitizers_of_sound {w : Synchronized (Logged γ)} (h : w.ledger.Sound) :
    w.digitizers.Pairwise (· < ·) ∧
      ∀ id, id ∈ w.digitizers ↔ ∃ a, (.createDigitizer id a, .ok ()) ∈ w.backend.log := by
  have hdistinct : (w.known.map (·.1)).Nodup := by
    rw [show w.known = _ from h.known, List.Nodup, List.pairwise_map]
    refine h.lawful.created_once.filterMap _ ?_
    rintro later earlier honce ⟨id, a⟩ hlater ⟨id', a'⟩ hearlier rfl
    rw [BackendCall.created?_eq_some_iff] at hlater hearlier
    exact honce id a a' ⟨hlater, hearlier⟩
  refine ⟨?_, fun id => ?_⟩
  · have hsorted := @List.pairwise_mergeSort UInt64 (fun a b => decide (a ≤ b))
      (fun a b c hab hbc => by
        simp only [decide_eq_true_eq] at hab hbc ⊢
        exact UInt64.le_trans hab hbc)
      (fun a b => by
        simp only [Bool.or_eq_true, decide_eq_true_eq]
        exact UInt64.le_total a b)
      (w.known.map (·.1))
    have hnodup := (List.mergeSort_perm (w.known.map (·.1)) fun a b => a ≤ b).nodup_iff.2 hdistinct
    exact (hsorted.and hnodup).imp fun h => UInt64.lt_of_le_of_ne (of_decide_eq_true h.1) h.2
  · rw [digitizers, List.mem_mergeSort, List.mem_map]
    constructor
    · rintro ⟨⟨id', a⟩, ha, rfl⟩
      exact ⟨a, h.mem_known_iff.1 ha⟩
    · rintro ⟨a, ha⟩
      exact ⟨(id, a), h.mem_known_iff.2 ha, rfl⟩

/-- Dropping the writer comes to closing it. -/
theorem dropped_answered (w : Synchronized (Logged γ)) :
    ∃ r l', Answered w.ledger .close r l' ∧ l'.log = w.dropped.log := by
  have ht := perform_answered (γ := γ) (l := w.ledger) .close
  unfold dropped
  cases hrun : close w with
  | ok _ w' => exact ⟨_, _, ht.ok rfl hrun, rfl⟩
  | error e w' => exact ⟨_, _, ht.error rfl hrun, rfl⟩

/-- A dropped writer has closed its backend, as the last call. -/
theorem dropped_of_sound {w : Synchronized (Logged γ)} (h : w.ledger.Sound) :
    LawfulLog w.dropped.log ∧ ∃ r rest, w.dropped.log = (.close, r) :: rest := by
  obtain ⟨r, l', ha, hlog⟩ := dropped_answered w
  have hlawful := (ha.sound h).lawful
  rw [← hlog]
  refine ⟨hlawful, ?_⟩
  cases ha with
  | nothing hne | mixed hne | written hne => exact absurd rfl hne
  | closedBefore _ hclosed =>
    obtain ⟨r, hr⟩ := h.closed.1 hclosed
    exact ⟨r, hlawful.eq_cons_of_closed hr⟩
  | closed => exact ⟨r, _, rfl⟩

theorem exists_answered (w : Synchronized (Logged γ)) (c : WriterCall) :
    (∃ w', c.perform w = .ok () w' ∧ Answered w.ledger c (.ok ()) w'.ledger) ∨
      ∃ e w', c.perform w = .error e w' ∧ Answered w.ledger c (.error e) w'.ledger := by
  have ht := perform_answered (γ := γ) (l := w.ledger) c
  cases hrun : c.perform w with
  | ok _ w' => exact .inl ⟨w', rfl, ht.ok rfl hrun⟩
  | error e w' => exact .inr ⟨e, w', rfl, ht.error rfl hrun⟩

theorem answer_of_sound {w : Synchronized (Logged γ)} (h : w.ledger.Sound) (c : WriterCall) :
    LawfulAnswer w c where
  nothing := by
    intro hne hnil
    obtain ⟨w', hrun, ha⟩ | ⟨e, w', -, ha⟩ := exists_answered w c
    · exact ⟨w', hrun, congrArg Ledger.log (ha.of_layouts_nil hne hnil).2⟩
    · cases (ha.of_layouts_nil hne hnil).1
  mixed := by
    intro hmixed
    obtain ⟨w', -, ha⟩ | ⟨e, w', hrun, ha⟩ := exists_answered w c
    · cases (ha.of_not_alike hmixed).1
    · obtain ⟨he, hl⟩ := ha.of_not_alike hmixed
      cases he
      exact ⟨w', hrun, congrArg Ledger.log hl⟩
  closed := by
    intro hclosed hne halike
    replace hclosed : w.ledger.closed = true := h.closed.2 hclosed
    obtain ⟨w', -, ha⟩ | ⟨e, w', hrun, ha⟩ := exists_answered w c
    · cases (ha.of_closed hclosed hne halike).1
    · obtain ⟨he, hl⟩ := ha.of_closed hclosed hne halike
      cases he
      exact ⟨w', hrun, congrArg Ledger.log hl⟩
  stored := by
    intro hne w' hrun
    exact ((perform_answered (γ := γ) (l := w.ledger) c).ok rfl hrun).of_ok hne
  failed := by
    intro e w' hrun
    have ha := (perform_answered (γ := γ) (l := w.ledger) c).error rfl hrun
    exact ha.of_error.imp_left fun hrejected => ⟨congrArg Ledger.log hrejected.1, hrejected.2⟩

/-- Whatever the backend answers and whatever is called in whatever order: the backend calls keep to
their laws, closing is the last of them and happens once; at every moment the digitizers are those
successfully created, in ascending order; and every next call is answered by the laws. -/
theorem run_lawful (backend : γ) (calls : List WriterCall) :
    let w := WriterCall.run (logged backend) calls
    LawfulLog w.dropped.log ∧
      (∃ r rest, w.dropped.log = (.close, r) :: rest ∧ ∀ e ∈ rest, e.1 ≠ .close) ∧
      (w.digitizers.Pairwise (· < ·) ∧
        ∀ id, id ∈ w.digitizers ↔ ∃ a, (.createDigitizer id a, .ok ()) ∈ w.backend.log) ∧
      ∀ c, LawfulAnswer w c := by
  have hsound := sound_run (sound_logged backend) calls
  intro w
  obtain ⟨hlawful, r, rest, hlog⟩ := dropped_of_sound hsound
  refine ⟨hlawful, ⟨r, rest, hlog, ?_⟩, digitizers_of_sound hsound, answer_of_sound hsound⟩
  have hlast := hlawful.closed_last
  rw [hlog] at hlast
  exact (List.pairwise_cons.1 hlast).1

/-- The first creation fails and is tried again by the next unit; nothing is stored behind the
closing. -/
def retriedCreation : List WriterCall :=
  [.writeEvents [.compact {}] 7 1, .writeEvents [.compact {}, .compact {}] 7 2, .close,
    .writeEvents [.compact {}] 7 3]

theorem retriedCreation_lawful :
    let w := WriterCall.run (logged ({ failing := [0] } : Journal)) retriedCreation
    LawfulLog w.dropped.log ∧ w.digitizers = [7] ∧
      ∃ w', (WriterCall.writeEvents [.compact {}] 7 4).perform w = .error .closed w' ∧
        w'.backend.log = w.backend.log := by
  obtain ⟨hlawful, -, -, hanswer⟩ := run_lawful ({ failing := [0] } : Journal) retriedCreation
  refine ⟨hlawful, by decide +kernel, (hanswer _).closed ⟨.ok (), List.mem_cons_self⟩ nofun ?_⟩
  unfold WriterCall.Alike
  decide

end Synchronized

end PulseDaq
