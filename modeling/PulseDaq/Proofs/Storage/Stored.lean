import PulseDaq.Proofs.Storage.Answers
import PulseDaq.Proofs.Storage.Directory

/-!
# A directory and the log of its calls

* `BackendCall.counted`, `BackendCall.Made`: what a successful call of a directory counts and makes.
* `DirectoryBackend.Counts`: what is counted is what has been stored, digitizer by digitizer. Each
  call of a lawful log keeps it so (`counts_unitsOf`).
* `DirectoryBackend.Reflects`: the directory has every file that its log says it made, and counts
  what the log counts. Every call of the backend keeps it so (`Reflects.note`), hence every history
  of a writer (`Synchronized.run_preserves`).
-/

namespace PulseDaq

namespace BackendCall

open DirectoryBackend

/-- The counts after a successful call. -/
def counted (units : List (String × Nat)) : BackendCall → List (String × Nat)
  | createDigitizer id _ => setCount (digitizerName id) 0 units
  | writeUnit u =>
    setCount (digitizerName u.id) ((units.lookup (digitizerName u.id)).getD 0 + 1) units
  | close => units

/-- The files that a successful call makes are there. -/
def Made (root : String) (units : List (String × Nat)) (fs : FileSystem) : BackendCall → Prop
  | createDigitizer id a =>
    fs.Holds (fileOf root id "digitizer.json") (Utf8.encode a.toJson.pretty)
  | writeUnit u => fs.Holds (recordsFile root u) u.bytes ∧
      fs.Holds (attributesFile root u) (Utf8.encode u.attributes.toJson.pretty)
  | close => fs.Holds (Path.join root "index.json") (Utf8.encode (indexOf units).pretty)

theorem Made.extends_ {root : String} {units : List (String × Nat)} {fs fs' : FileSystem}
    {c : BackendCall} (h : c.Made root units fs) (hextends : fs.Extends fs') :
    c.Made root units fs' := by
  cases c with
  | createDigitizer id a => exact FileSystem.Holds.extends_ h hextends
  | writeUnit u => exact ⟨h.1.extends_ hextends, h.2.extends_ hextends⟩
  | close => exact FileSystem.Holds.extends_ h hextends

end BackendCall

namespace DirectoryBackend

-- Whoever looks into a triple would run the call that it is about, as far as its path is known.
attribute [local irreducible] FileSystem.createNew FileSystem.createDirAll

/-! ## One call -/

section

variable {root : String} {units : List (String × Nat)}

/-- What a call leaves behind. -/
theorem perform_effect (c : BackendCall) {fs : FileSystem} :
    Triple (Has root units fs.Extends) c.perform
      (fun _ => Has root (c.counted units) fun fs' => fs.Extends fs' ∧ c.Made root units fs')
      fun _ => Has root units fs.Extends := by
  cases c with
  | createDigitizer id a => exact createDigitizer_effect id a
  | writeUnit u => exact writeUnit_effect u
  | close => exact close_effect

theorem plain_index : Path.Plain "index.json" := by
  refine ⟨?_, ?_, ?_, ?_⟩
  all_goals decide

theorem plain_digitizer : Path.Plain "digitizer.json" := by
  refine ⟨?_, ?_, ?_, ?_⟩
  all_goals decide

/-- Only the last call makes the index. -/
theorem perform_free {c : BackendCall} (h : c ≠ .close) :
    Triple (Has root units fun fs : FileSystem => fs.Free root "index.json") c.perform
      (fun _ => Has root (c.counted units) fun fs : FileSystem => fs.Free root "index.json")
      fun _ => Has root units fun fs : FileSystem => fs.Free root "index.json" := by
  have hdigits {name : String} {n : Nat} {rest : List Char}
      (hname : name.toList = Nat.toDigits 10 n ++ rest) : name ≠ "index.json" :=
    ne_of_digits hname rfl
  cases c with
  | close => exact absurd rfl h
  | createDigitizer id a =>
    exact createDigitizer_triple
      (FileSystem.Free.createDirAll (plain_digitizerName id) (hdigits (toList_digitizerName id)))
      (FileSystem.Free.createNew _ plain_digitizer (by decide) _)
  | writeUnit u =>
    exact writeUnit_triple
      (FileSystem.Free.createNew _ (plain_numbered _ (by decide)) (hdigits (toList_numbered _ _)) _)
      (FileSystem.Free.createNew _ (plain_numbered _ (by decide)) (hdigits (toList_numbered _ _)) _)

end

/-! ## The counts of a log -/

/-- The counts after the calls in a log. -/
def unitsOf : BackendLog → List (String × Nat)
  | [] => []
  | (c, .ok _) :: log => c.counted (unitsOf log)
  | (_, .error _) :: log => unitsOf log

theorem ordered_unitsOf (log : BackendLog) : Ordered (unitsOf log) := by
  induction log with
  | nil => exact .nil
  | cons e log ih =>
    obtain ⟨c, r⟩ := e
    cases r with
    | error e => exact ih
    | ok _ =>
      cases c with
      | createDigitizer id a => exact ordered_setCount ih
      | writeUnit u => exact ordered_setCount ih
      | close => exact ih

/-- There is room for the digitizer. -/
def Created (log : BackendLog) (id : UInt64) : Prop :=
  ∃ a, (.createDigitizer id a, .ok ()) ∈ log

/-- No unit is stored for a digitizer that there is no room for. -/
theorem storedOf_eq_zero {log : BackendLog} (h : LawfulLog log) {id : UInt64}
    (hnew : ¬Created log id) : BackendLog.storedOf id log = 0 := by
  refine List.count_eq_zero.2 fun hstored => ?_
  obtain ⟨⟨c, r⟩, hmem, hstored⟩ := List.mem_filterMap.1 hstored
  cases c with
  | createDigitizer | close => cases hstored
  | writeUnit u =>
    cases r with
    | error e => cases hstored
    | ok _ =>
      cases hstored
      obtain ⟨later, earlier, hlog⟩ := List.append_of_mem hmem
      obtain ⟨a, ha, -⟩ := h.created_first later u _ earlier hlog
      exact hnew ⟨a, hlog ▸ List.mem_append_right _ (.tail _ ha)⟩

/-- Each digitizer that there is room for is counted, with the units stored for it. -/
def Counts (log : BackendLog) (units : List (String × Nat)) : Prop :=
  ∀ name n, (name, n) ∈ units ↔
    ∃ id, Created log id ∧ name = digitizerName id ∧ n = BackendLog.storedOf id log

namespace Counts

variable {log : BackendLog} {units : List (String × Nat)}

/-- Calls that make no room and store nothing are not counted. -/
theorem same (h : Counts log units) {c : BackendCall} {r : Except WriterError Unit}
    (hcreated : ∀ id a, (.createDigitizer id a, .ok ()) ≠ (c, r))
    (hstored : ∀ id, BackendLog.storedOf id ((c, r) :: log) = BackendLog.storedOf id log) :
    Counts ((c, r) :: log) units := by
  intro name n
  simp only [h name n, Created, List.mem_cons, hcreated, false_or, hstored]

/-- A new digitizer has no unit yet. -/
theorem create (h : Counts log units) (hunits : Ordered units) {id : UInt64}
    (hnew : ¬Created log id) (hzero : BackendLog.storedOf id log = 0) (a : DigitizerAttributes) :
    Counts ((.createDigitizer id a, .ok ()) :: log) (setCount (digitizerName id) 0 units) := by
  have hcreated (id' : UInt64) :
      Created ((.createDigitizer id a, .ok ()) :: log) id' ↔ id' = id ∨ Created log id' := by
    simp [Created, exists_or]
  intro name n
  simp only [mem_setCount hunits, h name n, hcreated, BackendLog.storedOf_createDigitizer]
  constructor
  · rintro (⟨rfl, rfl⟩ | ⟨-, id', hid', rfl, rfl⟩)
    · exact ⟨id, .inl rfl, rfl, hzero.symm⟩
    · exact ⟨id', .inr hid', rfl, rfl⟩
  · rintro ⟨id', rfl | hid', rfl, rfl⟩
    · exact .inl ⟨rfl, hzero⟩
    · exact .inr ⟨fun heq => hnew (digitizerName_inj heq ▸ hid'), id', hid', rfl, rfl⟩

/-- A unit is counted for its digitizer. -/
theorem store (h : Counts log units) (hunits : Ordered units) {u : StoredUnit}
    (hroom : Created log u.id) :
    Counts ((.writeUnit u, .ok ()) :: log) (BackendCall.counted units (.writeUnit u)) := by
  have hcreated (id : UInt64) : Created ((.writeUnit u, .ok ()) :: log) id ↔ Created log id := by
    simp [Created]
  have hcount : units.lookup (digitizerName u.id) = some (BackendLog.storedOf u.id log) :=
    (lookup_eq_some_iff hunits).2 ((h _ _).2 ⟨u.id, hroom, rfl, rfl⟩)
  intro name n
  simp only [BackendCall.counted, mem_setCount hunits, h name n, hcreated, hcount,
    Option.getD_some, BackendLog.storedOf_writeUnit]
  constructor
  · rintro (⟨rfl, rfl⟩ | ⟨hne, id, hid, rfl, rfl⟩)
    · exact ⟨u.id, hroom, rfl, by rw [if_pos rfl]⟩
    · exact ⟨id, hid, rfl, by rw [if_neg fun heq : u.id = id => hne (heq ▸ rfl), Nat.add_zero]⟩
  · rintro ⟨id, hid, rfl, rfl⟩
    by_cases heq : u.id = id
    · exact .inl ⟨by rw [heq], by rw [if_pos heq, heq]⟩
    · exact .inr ⟨fun hname => heq (digitizerName_inj hname).symm, id, hid, rfl,
        by rw [if_neg heq, Nat.add_zero]⟩

end Counts

/-- A lawful log counts what it stores. -/
theorem counts_unitsOf {log : BackendLog} (h : LawfulLog log) : Counts log (unitsOf log) := by
  induction log with
  | nil =>
    intro name n
    simp [unitsOf, Created]
  | cons e log ih =>
    have hlog := ih h.tail
    have hunits := ordered_unitsOf log
    obtain ⟨c, r⟩ := e
    cases r with
    | error e => exact hlog.same nofun fun id => BackendLog.storedOf_error id c e log
    | ok _ =>
      cases c with
      | createDigitizer id a =>
        have hnew : ¬Created log id := by
          rintro ⟨a', ha'⟩
          exact (List.pairwise_cons.1 h.created_once).1 _ ha' id a a' ⟨rfl, rfl⟩
        exact hlog.create hunits hnew (storedOf_eq_zero h.tail hnew) a
      | writeUnit u =>
        obtain ⟨a, ha, -⟩ := h.created_first [] u _ log rfl
        exact hlog.store hunits ⟨a, ha⟩
      | close => exact hlog.same nofun fun id => BackendLog.storedOf_close id _ log

/-! ## The directory behind a log -/

/-- The directory has what its log says it made, and counts what the log counts. -/
structure Reflects (root : String) (l : Logged DirectoryBackend) : Prop where
  root_eq : l.backend.root = root
  units_eq : l.backend.units = unitsOf l.log
  made : ∀ c earlier, (c, .ok ()) :: earlier <:+ l.log →
    c.Made root (unitsOf earlier) l.backend.files
  index_free : (∀ e ∈ l.log, e.1 ≠ .close) → l.backend.files.Free root "index.json"

/-- Every call keeps the directory in step with its log. -/
theorem Reflects.note (root : String) (c : BackendCall) :
    Preserves (Reflects root) (Logged.note c) := by
  intro l h
  have heffect : Triple (Has root (unitsOf l.log) l.backend.files.Extends) c.perform _ _ :=
    perform_effect c
  have hstart : Has root (unitsOf l.log) l.backend.files.Extends l.backend :=
    ⟨h.root_eq, h.units_eq, .refl _⟩
  have hfree (hopen : ∀ e ∈ l.log, e.1 ≠ .close) (hne : c ≠ .close) :
      match c.perform l.backend with
      | .ok _ b | .error _ b => b.files.Free root "index.json" := by
    have ht := perform_free hne l.backend ⟨h.root_eq, h.units_eq, h.index_free hopen⟩
    split
    all_goals
      next hrun =>
        rw [hrun] at ht
        exact ht.2.2
  unfold Logged.note
  cases hrun : c.perform l.backend with
  | ok _ b =>
    simp only [hrun] at hfree
    obtain ⟨hroot, hunits, hb, hmade⟩ := heffect.ok hstart hrun
    refine ⟨hroot, hunits, fun c' earlier hlog => ?_, fun hopen => ?_⟩
    · rcases List.suffix_cons_iff.1 hlog with heq | hlog
      · cases heq
        exact hmade
      · exact (h.made c' earlier hlog).extends_ hb
    · have hopen := List.forall_mem_cons.1 hopen
      exact hfree hopen.2 hopen.1
  | error e b =>
    simp only [hrun] at hfree
    obtain ⟨hroot, hunits, hb⟩ := heffect.error hstart hrun
    refine ⟨hroot, hunits, fun c' earlier hlog => ?_, fun hopen => ?_⟩
    · rcases List.suffix_cons_iff.1 hlog with heq | hlog
      · cases heq
      · exact (h.made c' earlier hlog).extends_ hb
    · have hopen := List.forall_mem_cons.1 hopen
      exact hfree hopen.2 hopen.1

end DirectoryBackend

/-! ## Histories -/

/-- A call of a logged backend is logged. -/
theorem Logged.perform_eq {γ : Type} [Backend γ] (c : BackendCall) :
    c.perform (γ := Logged γ) = Logged.note c := by
  cases c with
  | createDigitizer | writeUnit | close => rfl

namespace Synchronized

variable {γ : Type} [Backend γ] {P : γ → Prop}

omit [Backend γ] in
theorem onBackend_preserves {call : EStateM WriterError γ Unit} (h : Preserves P call) :
    Preserves (fun w : Synchronized γ => P w.backend) (onBackend call) := by
  intro w hw
  unfold onBackend
  have hcall := h w.backend hw
  cases hrun : call w.backend with
  | ok _ b =>
    rw [hrun] at hcall
    exact hcall
  | error e b =>
    rw [hrun] at hcall
    exact hcall

variable (h : ∀ c : BackendCall, Preserves P c.perform)

include h

theorem write_preserves (u : StoredUnit) :
    Preserves (fun w : Synchronized γ => P w.backend) (write u) := by
  refine .ite (.pure _) (.bind_get fun w => .ite (.throw _) (.bind (.bind_get fun w => ?_) ?_))
  · cases w.known.lookup u.id with
    | some a => exact .ite (.throw _) (.pure _)
    | none =>
      refine .bind (onBackend_preserves (h (.createDigitizer u.id _))) fun _ => .modify ?_
      exact fun _ hw => hw
  · exact fun _ => onBackend_preserves (h (.writeUnit u))

theorem close_preserves : Preserves (fun w : Synchronized γ => P w.backend) close := by
  refine Triple.bind_get fun w₀ h₀ =>
    .ite (fun _ => .pure _ ?_) fun _ => .bind_modify (onBackend_preserves (h .close)) ?_
  all_goals
    rintro _ rfl
    exact h₀

/-- What every call of the backend keeps is kept by every call of the writer. -/
theorem perform_preserves (c : WriterCall) :
    Preserves (fun w : Synchronized γ => P w.backend) c.perform := by
  by_cases hc : c = .close
  · subst hc
    exact close_preserves h
  rw [perform_eq_write hc]
  refine .bind (.ofExcept _) fun unit => ?_
  cases unit with
  | some u => exact write_preserves h u
  | none => exact .pure _

/-- What every call of the backend keeps is kept by every history. -/
theorem run_preserves {w : Synchronized γ} (hw : P w.backend) (calls : List WriterCall) :
    P (WriterCall.run w calls).backend :=
  Preserves.foldl WriterCall.perform_after (perform_preserves h) hw calls

end Synchronized

end PulseDaq
