import Mathlib.Data.Set.Card
import PulseDaq.Proofs.Files.Faults
import PulseDaq.Proofs.Storage.Independence
import PulseDaq.Proofs.Storage.Stored

/-!
# Units that are half stored

A unit is two files, its records before its attributes. If something goes wrong behind the records,
they stay: the unit is not counted and not stored, and cannot be stored any more.

* `recordsIn`: the units of a digitizer that have a file of records.
* `LeftBehind`: what a unit leaves behind that could not be stored, with the error for it.
* `BackendLog.timestamps`, `BackendLog.forgotten`: the units that a log says are stored, and those
  that were so before the digitizer got its directory and its count. `count_unitsOf` relates them to
  what is counted.
* `Tallied`: the new files of records are those of the stored units and of units that were refused.
  Every call keeps it so.
* `records_counted`: the main result.
-/

namespace PulseDaq

open DirectoryBackend

/-! ## Logs -/

/-- The timestamp of the unit that a call is to store. -/
def BackendCall.timestamp? : BackendCall → Option UInt64
  | writeUnit u => some u.timestamp
  | _ => none

namespace BackendLog

/-- The timestamps of the units that are stored for a digitizer, the latest first. -/
def timestamps (id : UInt64) : BackendLog → List UInt64
  | [] => []
  | (.writeUnit u, .ok _) :: earlier =>
    if u.id = id then u.timestamp :: timestamps id earlier else timestamps id earlier
  | _ :: earlier => timestamps id earlier

/-- How many units were stored for a digitizer before its count was set to zero. -/
def forgotten (id : UInt64) : BackendLog → Nat
  | [] => 0
  | (.createDigitizer id' _, .ok _) :: earlier =>
    if id' = id then (timestamps id earlier).length else forgotten id earlier
  | _ :: earlier => forgotten id earlier

/-- A unit was to be stored, and could not be. -/
def Refused (id timestamp : UInt64) (log : BackendLog) : Prop :=
  ∃ u path cause, (.writeUnit u, .error (.io path cause)) ∈ log ∧ u.id = id ∧
    u.timestamp = timestamp

theorem Refused.mono {id timestamp : UInt64} {log : BackendLog} (h : Refused id timestamp log)
    (e : BackendCall × Except WriterError Unit) : Refused id timestamp (e :: log) := by
  obtain ⟨u, path, cause, hmem, hu⟩ := h
  exact ⟨u, path, cause, .tail _ hmem, hu⟩

end BackendLog

namespace DirectoryBackend

open BackendLog

theorem lookup_setCount {name : String} {count : Nat} {units : List (String × Nat)}
    (h : Ordered units) (other : String) :
    (setCount name count units).lookup other =
      if other = name then some count else units.lookup other := by
  ext n
  rw [lookup_eq_some_iff (ordered_setCount h), mem_setCount h]
  by_cases hname : other = name
  · simp [hname, eq_comm]
  · simp [hname, lookup_eq_some_iff h]

/-- The units that are stored for a digitizer are counted, but for those that its count has
forgotten. -/
theorem count_unitsOf (id : UInt64) (log : BackendLog) :
    ((unitsOf log).lookup (digitizerName id)).getD 0 + forgotten id log =
      (timestamps id log).length := by
  induction log with
  | nil => rfl
  | cons e log ih =>
    obtain ⟨c, r⟩ := e
    cases r with
    | error e => cases c <;> exact ih
    | ok a =>
      cases c with
      | close => exact ih
      | createDigitizer id' a =>
        simp only [unitsOf, BackendCall.counted, lookup_setCount (ordered_unitsOf log), forgotten,
          timestamps]
        by_cases hid : id' = id
        · rw [if_pos (congrArg digitizerName hid.symm), if_pos hid]
          exact Nat.zero_add _
        · rw [if_neg fun hname => hid (digitizerName_inj hname).symm, if_neg hid, ih]
      | writeUnit u =>
        simp only [unitsOf, BackendCall.counted, lookup_setCount (ordered_unitsOf log), forgotten,
          timestamps]
        by_cases hid : u.id = id
        · rw [if_pos (congrArg digitizerName hid.symm), if_pos hid, hid, List.length_cons, ← ih]
          exact Nat.add_right_comm _ _ _
        · rw [if_neg fun hname => hid (digitizerName_inj hname).symm, if_neg hid, ih]

/-! ## Files of records -/

/-- Where the records of a unit are, in the directory of the run at `r`. -/
def recordsLocation (r : Location) (id timestamp : UInt64) : Location :=
  s!"{timestamp.toNat}.bin" :: digitizerName id :: r

/-- The units of a digitizer that have a file of records in the directory of the run. -/
def recordsIn (fs : FileSystem) (root : String) (id : UInt64) : Set UInt64 :=
  {timestamp | ∃ r bytes, fs.locate root = .ok r ∧
    fs.node? (recordsLocation r id timestamp) = some (.file bytes)}

theorem recordsLocation_inj {r : Location} {id id' timestamp timestamp' : UInt64} :
    recordsLocation r id timestamp = recordsLocation r id' timestamp' ↔
      id = id' ∧ timestamp = timestamp' := by
  constructor
  · intro h
    obtain ⟨hfile, hdir⟩ := List.cons.inj h
    exact ⟨digitizerName_inj (List.cons.inj hdir).1,
      UInt64.toNat_inj.1 (numbered_inj rfl rfl hfile).1⟩
  · rintro ⟨rfl, rfl⟩
    rfl

section

variable {fs fs' fs'' : FileSystem} {root : String} {r : Location} {id timestamp : UInt64}
  {u : StoredUnit} {bytes : Bytes}

theorem mem_recordsIn (hroot : fs.locate root = .ok r) :
    timestamp ∈ recordsIn fs root id ↔
      ∃ bytes, fs.node? (recordsLocation r id timestamp) = some (.file bytes) := by
  constructor
  · rintro ⟨r', bytes, hroot', hnode⟩
    rw [hroot] at hroot'
    cases hroot'
    exact ⟨bytes, hnode⟩
  · rintro ⟨bytes, hnode⟩
    exact ⟨r, bytes, hroot, hnode⟩

theorem recordsIn_mono (h : fs.Extends fs') : recordsIn fs root id ⊆ recordsIn fs' root id := by
  rintro timestamp ⟨r, bytes, hroot, hnode⟩
  exact ⟨r, bytes, h.locate hroot, h.node hnode⟩

/-- Something new is a file of records only in its own place. -/
theorem mem_recordsIn_added (hroot : fs.locate root = .ok r) {l : Location}
    (hnew : fs.node? l = none) (node : Node) :
    timestamp ∈ recordsIn (fs.added l node) root id ↔ timestamp ∈ recordsIn fs root id ∨
      recordsLocation r id timestamp = l ∧ ∃ bytes, node = .file bytes := by
  rw [mem_recordsIn ((FileSystem.extends_added hnew node).locate hroot), mem_recordsIn hroot,
    FileSystem.node?_added hnew]
  by_cases hl : recordsLocation r id timestamp = l
  · simp [hl, hnew]
  · simp [hl]

/-- Everything stays, and there are no more files of records. -/
structure SameRecords (root : String) (fs fs' : FileSystem) : Prop where
  extends_ : fs.Extends fs'
  mem_iff : ∀ id timestamp, timestamp ∈ recordsIn fs' root id ↔ timestamp ∈ recordsIn fs root id

/-- Everything stays, and the file of records of the unit is new, with the bytes. -/
structure GetsRecords (root : String) (u : StoredUnit) (bytes : Bytes) (fs fs' : FileSystem) :
    Prop where
  extends_ : fs.Extends fs'
  holds : fs'.Holds (recordsFile root u) bytes
  new : u.timestamp ∉ recordsIn fs root u.id
  mem_iff : ∀ id timestamp, timestamp ∈ recordsIn fs' root id ↔
    timestamp ∈ recordsIn fs root id ∨ id = u.id ∧ timestamp = u.timestamp

theorem SameRecords.refl (root : String) (fs : FileSystem) : SameRecords root fs fs :=
  ⟨.refl fs, fun _ _ => .rfl⟩

theorem SameRecords.trans (h : SameRecords root fs fs') (h' : SameRecords root fs' fs'') :
    SameRecords root fs fs'' :=
  ⟨h.extends_.trans h'.extends_, fun id t => (h'.mem_iff id t).trans (h.mem_iff id t)⟩

theorem GetsRecords.trans (h : GetsRecords root u bytes fs fs') (h' : SameRecords root fs' fs'') :
    GetsRecords root u bytes fs fs'' where
  extends_ := h.extends_.trans h'.extends_
  holds := h.holds.extends_ h'.extends_
  new := h.new
  mem_iff id t := (h'.mem_iff id t).trans (h.mem_iff id t)

/-- Directories are no files of records. -/
theorem SameRecords.directory (hroot : fs.locate root = .ok r) (h : SameRecords root fs fs')
    {l : Location} (hnew : fs'.node? l = none) : SameRecords root fs (fs'.added l .directory) := by
  refine h.trans ⟨FileSystem.extends_added hnew _, fun id t => ?_⟩
  rw [mem_recordsIn_added (h.extends_.locate hroot) hnew]
  simp

/-- Neither are files with other names. -/
theorem sameRecords_of_gets (hroot : fs.locate root = .ok r) {base name : String}
    (hname : Path.Plain name) (hne : ∀ n : Nat, s!"{n}.bin" ≠ name)
    (h : fs.Gets (Path.join base name) bytes fs') : SameRecords root fs fs' := by
  refine ⟨h.extends_, fun id t => ?_⟩
  obtain ⟨l, hlocate, hnew, rfl⟩ := h
  have hplace := (FileSystem.locateFile_eq_ok_iff.1 hlocate).2
  obtain ⟨r', rfl⟩ := FileSystem.locate_join_eq_ok hname hplace
  rw [mem_recordsIn_added hroot hnew, or_iff_left]
  rintro ⟨hl, -⟩
  exact hne t.toNat (List.cons.inj hl).1

theorem getsRecords_of_gets (hroot : fs.locate root = .ok r)
    (h : fs.Gets (recordsFile root u) bytes fs') : GetsRecords root u bytes fs fs' := by
  obtain ⟨l, hlocate, hnew, heq⟩ := id h
  have hl : l = recordsLocation r u.id u.timestamp :=
    FileSystem.locate_join_join hroot (plain_digitizerName u.id) (plain_numbered _ (by decide))
      (FileSystem.locateFile_eq_ok_iff.1 hlocate).2
  subst hl heq
  refine ⟨h.extends_, h.holds, fun hmem => ?_, fun id t => ?_⟩
  · obtain ⟨bytes', hnode⟩ := (mem_recordsIn hroot).1 hmem
    rw [hnew] at hnode
    cases hnode
  · rw [mem_recordsIn_added hroot hnew, recordsLocation_inj]
    simp

end

/-! ## Calls that fail -/

/-- What a unit leaves behind that could not be stored. -/
inductive LeftBehind (root : String) (u : StoredUnit) (fs : FileSystem) :
    WriterError → FileSystem → Prop
  | nothing (cause : OsError) : LeftBehind root u fs (unitError u (recordsFile root u) cause) fs
  /-- The file of records has been made, but not all of them have got into it. -/
  | cut {fs' : FileSystem} (n : Nat) (text : String)
    (gets : GetsRecords root u (u.bytes.take n) fs fs') :
    LeftBehind root u fs (.io (recordsFile root u) (.other text)) fs'
  /-- All records have been written, but nothing about them. -/
  | bare {fs' : FileSystem} (cause : OsError) (gets : GetsRecords root u u.bytes fs fs') :
    LeftBehind root u fs (.io (attributesFile root u) cause) fs'

section

variable {fs : FileSystem} {root : String} {r : Location} {units : List (String × Nat)}

theorem bin_ne (extension : String) (hdigit : extension.toList.head?.any Char.isDigit = false)
    (hne : extension ≠ ".bin") (m n : Nat) : s!"{n}.bin" ≠ toString m ++ extension :=
  fun h => hne (numbered_inj rfl hdigit h).2.symm

theorem bin_ne_of_text {text : String} (htext : text.toList.head?.any Char.isDigit = false)
    (n : Nat) : s!"{n}.bin" ≠ text :=
  ne_of_digits (toList_numbered n ".bin") htext

/-- A file with another name, or what there is of it, is no file of records. -/
theorem createNew_same (hroot : fs.locate root = .ok r) (base : String) {name : String}
    (hname : Path.Plain name) (hne : ∀ n : Nat, s!"{n}.bin" ≠ name) (bytes : Bytes) :
    Triple (fun f : FaultySystem => f.system = fs) (Files.createNew (Path.join base name) bytes)
      (fun _ f => SameRecords root fs f.system) fun _ f => SameRecords root fs f.system := by
  refine (FaultySystem.createNew_triple _ bytes fs).imp ?_ ?_
  · exact fun _ _ h => sameRecords_of_gets hroot hname hne h
  · rintro _ _ (h | ⟨n, text, -, h⟩)
    · rw [h]
      exact .refl root fs
    · exact sameRecords_of_gets hroot hname hne h

theorem createNew_keeps (hroot : fs.locate root = .ok r) {base name : String}
    (hname : Path.Plain name) (hne : ∀ n : Nat, s!"{n}.bin" ≠ name) (bytes : Bytes) :
    Preserves (fun f : FaultySystem => SameRecords root fs f.system)
      (Files.createNew (Path.join base name) bytes) := by
  intro f hf
  have hnew := createNew_same (hf.extends_.locate hroot) base hname hne bytes
  exact (hnew.imp (fun _ _ h => hf.trans h) fun _ _ h => hf.trans h) f rfl

/-- A digitizer gets no records with its directory. -/
theorem createDigitizer_same (hroot : fs.locate root = .ok r) (id : UInt64)
    (a : DigitizerAttributes) :
    Triple (Has root units fun f : FaultySystem => f.system = fs) (createDigitizer id a)
      (fun _ => Has root (setCount (digitizerName id) 0 units) fun f =>
        SameRecords root fs f.system)
      fun _ => Has root units fun f => SameRecords root fs f.system := by
  have hdir := FaultySystem.createDirAll_preserves (P := SameRecords root fs)
    (fun fs' l h hnew => h.directory hroot hnew) (Path.join root (digitizerName id))
  refine createDigitizer_triple (E := fun _ (f : FaultySystem) => SameRecords root fs f.system)
    (hdir.pre fun f hf => ?_)
    (createNew_keeps hroot plain_digitizer (bin_ne_of_text rfl) _)
  rw [hf]
  exact .refl root fs

theorem close_same (hroot : fs.locate root = .ok r) :
    Triple (Has root units fun f : FaultySystem => f.system = fs) close
      (fun _ => Has root units fun f => SameRecords root fs f.system)
      fun _ => Has root units fun f => SameRecords root fs f.system :=
  close_triple (E := fun _ (f : FaultySystem) => SameRecords root fs f.system)
    (createNew_same hroot root plain_index (bin_ne_of_text rfl) _)

/-- A unit that is stored has all its records. -/
theorem writeUnit_outcome (hroot : fs.locate root = .ok r) (u : StoredUnit) :
    Triple (Has root units fun f : FaultySystem => f.system = fs) (writeUnit u)
      (fun _ => Has root
        (setCount (digitizerName u.id) ((units.lookup (digitizerName u.id)).getD 0 + 1) units)
        fun f => GetsRecords root u u.bytes fs f.system)
      fun e => Has root units fun f => LeftBehind root u fs e f.system := by
  refine writeUnit_triple (Q := fun f : FaultySystem => GetsRecords root u u.bytes fs f.system)
    (E := fun e (f : FaultySystem) => LeftBehind root u fs e f.system) ?_ ?_
  · refine (FaultySystem.createNew_triple (recordsFile root u) u.bytes fs).imp ?_ ?_
    · exact fun _ _ h => getsRecords_of_gets hroot h
    · rintro e f (h | ⟨n, text, rfl, h⟩)
      · rw [h]
        exact .nothing e
      · exact .cut n text (getsRecords_of_gets hroot h)
  · -- The records are there, whatever becomes of the attributes.
    intro f hf
    have hattributes := createNew_same (hf.extends_.locate hroot)
      (Path.join root (digitizerName u.id)) (plain_numbered u.timestamp.toNat (by decide))
      (bin_ne ".json" rfl (by decide) u.timestamp.toNat) (Utf8.encode u.attributes.toJson.pretty)
    exact (hattributes.imp (fun _ _ h => hf.trans h) fun e _ h => .bare e (hf.trans h)) f rfl

end

/-! ## Histories -/

/-- What the files of records and the counts have to do with the log. -/
structure Tallied (b₀ : RunDirectory FaultySystem) (l : Logged (RunDirectory FaultySystem)) :
    Prop where
  root_eq : l.backend.root = b₀.root
  units_eq : l.backend.units = unitsOf l.log
  extends_ : b₀.files.system.Extends l.backend.files.system
  nodup : ∀ id, (timestamps id l.log).Nodup
  /-- Stored units have records, and had none at first. -/
  stored : ∀ id, ∀ t ∈ timestamps id l.log,
    t ∈ recordsIn l.backend.files.system b₀.root id ∧ t ∉ recordsIn b₀.files.system b₀.root id
  /-- There are no other new records but those of units that were refused. -/
  cause : ∀ id, ∀ t ∈ recordsIn l.backend.files.system b₀.root id,
    t ∈ recordsIn b₀.files.system b₀.root id ∨ t ∈ timestamps id l.log ∨ Refused id t l.log

namespace Tallied

variable {b₀ b' : RunDirectory FaultySystem} {l : Logged (RunDirectory FaultySystem)}
  {c : BackendCall} {a : Except WriterError Unit}

/-- A call that changes no file of records and stores no unit. -/
theorem same (h : Tallied b₀ l) (hb : Has b₀.root (unitsOf ((c, a) :: l.log))
      (fun f => SameRecords b₀.root l.backend.files.system f.system) b')
    (hstamps : ∀ id, timestamps id ((c, a) :: l.log) = timestamps id l.log) :
    Tallied b₀ ⟨b', (c, a) :: l.log⟩ := by
  obtain ⟨hroot, hunits, hsame⟩ := hb
  refine ⟨hroot, hunits, h.extends_.trans hsame.extends_, ?_, ?_, ?_⟩
  · simpa only [hstamps] using h.nodup
  · simpa only [hstamps, hsame.mem_iff] using h.stored
  · intro id t ht
    rw [hsame.mem_iff] at ht
    rw [hstamps]
    exact (h.cause id t ht).imp_right (Or.imp_right fun h => h.mono _)

/-- Where records are added, stored units keep theirs. -/
theorem stored_of_gets (h : Tallied b₀ l) {u : StoredUnit} {bytes : Bytes} {fs : FileSystem}
    (hgets : GetsRecords b₀.root u bytes l.backend.files.system fs) {id t : UInt64}
    (ht : t ∈ timestamps id l.log) :
    t ∈ recordsIn fs b₀.root id ∧ t ∉ recordsIn b₀.files.system b₀.root id :=
  (h.stored id t ht).imp_left fun ht => (hgets.mem_iff id t).2 (.inl ht)

/-- A unit that has been stored. -/
theorem stores (h : Tallied b₀ l) {u : StoredUnit} {bytes : Bytes}
    (hb : Has b₀.root (unitsOf ((.writeUnit u, .ok ()) :: l.log))
      (fun f => GetsRecords b₀.root u bytes l.backend.files.system f.system) b') :
    Tallied b₀ ⟨b', (.writeUnit u, .ok ()) :: l.log⟩ := by
  obtain ⟨hroot, hunits, hgets⟩ := hb
  have hstamps (id : UInt64) : timestamps id ((.writeUnit u, .ok ()) :: l.log) =
      if u.id = id then u.timestamp :: timestamps id l.log else timestamps id l.log := rfl
  refine ⟨hroot, hunits, h.extends_.trans hgets.extends_, fun id => ?_, fun id t ht => ?_,
    fun id t ht => ?_⟩
  · rw [hstamps]
    split
    next hid =>
      subst hid
      exact .cons (fun ht => hgets.new (h.stored _ _ ht).1) (h.nodup _)
    next => exact h.nodup id
  · rw [hstamps] at ht
    split at ht
    next hid =>
      subst hid
      rcases List.mem_cons.1 ht with rfl | ht
      · exact ⟨(hgets.mem_iff _ _).2 (.inr ⟨rfl, rfl⟩),
          fun ht => hgets.new (recordsIn_mono h.extends_ ht)⟩
      · exact h.stored_of_gets hgets ht
    next => exact h.stored_of_gets hgets ht
  · rw [hstamps]
    rcases (hgets.mem_iff id t).1 ht with ht | ⟨rfl, rfl⟩
    · refine (h.cause id t ht).imp_right (Or.imp (fun ht => ?_) fun h => h.mono _)
      split
      · exact .tail _ ht
      · exact ht
    · rw [if_pos rfl]
      exact .inr (.inl List.mem_cons_self)

/-- A unit that has been refused behind its records. -/
theorem halves (h : Tallied b₀ l) {u : StoredUnit} {bytes : Bytes} {path : String}
    {cause : OsError} (hb : Has b₀.root (unitsOf l.log)
      (fun f => GetsRecords b₀.root u bytes l.backend.files.system f.system) b') :
    Tallied b₀ ⟨b', (.writeUnit u, .error (.io path cause)) :: l.log⟩ := by
  obtain ⟨hroot, hunits, hgets⟩ := hb
  refine ⟨hroot, hunits, h.extends_.trans hgets.extends_, h.nodup,
    fun _ _ ht => h.stored_of_gets hgets ht, fun id t ht => ?_⟩
  rcases (hgets.mem_iff id t).1 ht with ht | ⟨rfl, rfl⟩
  · exact (h.cause id t ht).imp_right (Or.imp_right fun h => h.mono _)
  · exact .inr (.inr ⟨u, path, cause, List.mem_cons_self, rfl, rfl⟩)

/-- A unit that has been refused. -/
theorem refused (h : Tallied b₀ l) {u : StoredUnit} {e : WriterError}
    (hb : Has b₀.root (unitsOf l.log)
      (fun f => LeftBehind b₀.root u l.backend.files.system e f.system) b') :
    Tallied b₀ ⟨b', (.writeUnit u, .error e) :: l.log⟩ := by
  obtain ⟨hroot, hunits, hleft⟩ := hb
  generalize hsystem : b'.files.system = fs' at hleft
  cases hleft with
  | nothing cause =>
    have hsame : SameRecords b₀.root l.backend.files.system b'.files.system := by
      rw [hsystem]
      exact .refl _ _
    exact h.same ⟨hroot, hunits, hsame⟩ fun _ => rfl
  | cut n text gets => exact h.halves ⟨hroot, hunits, hsystem ▸ gets⟩
  | bare cause gets => exact h.halves ⟨hroot, hunits, hsystem ▸ gets⟩

theorem perform (h : Tallied b₀ l) {r : Location}
    (hroot : b₀.files.system.locate b₀.root = .ok r) (c : BackendCall) :
    Triple (· = l.backend) c.perform (fun _ b' => Tallied b₀ ⟨b', (c, .ok ()) :: l.log⟩)
      fun e b' => Tallied b₀ ⟨b', (c, .error e) :: l.log⟩ := by
  have hlocate := h.extends_.locate hroot
  have hstart : ∀ b, b = l.backend →
      Has b₀.root (unitsOf l.log) (fun f => f.system = l.backend.files.system) b := by
    rintro _ rfl
    exact ⟨h.root_eq, h.units_eq, rfl⟩
  cases c with
  | createDigitizer id a =>
    exact (createDigitizer_same hlocate id a).conseq hstart (fun _ _ hb => h.same hb fun _ => rfl)
      fun _ _ hb => h.same hb fun _ => rfl
  | writeUnit u =>
    exact (writeUnit_outcome hlocate u).conseq hstart (fun _ _ hb => h.stores hb)
      fun _ _ hb => h.refused hb
  | close =>
    exact (close_same hlocate).conseq hstart (fun _ _ hb => h.same hb fun _ => rfl)
      fun _ _ hb => h.same hb fun _ => rfl

/-- Every call keeps the tally. -/
theorem note {r : Location} (hroot : b₀.files.system.locate b₀.root = .ok r) (c : BackendCall) :
    Preserves (Tallied b₀) (Logged.note c) := by
  intro l h
  have hrun := h.perform hroot c l.backend rfl
  unfold Logged.note
  cases hresult : c.perform l.backend with
  | ok _ b' =>
    rw [hresult] at hrun
    exact hrun
  | error e b' =>
    rw [hresult] at hrun
    exact hrun

end Tallied

/-- The new files of records are as many as the units that are stored, and those that have records
without being stored. -/
theorem Tallied.ncard_eq {b₀ : RunDirectory FaultySystem} {l : Logged (RunDirectory FaultySystem)}
    (h : Tallied b₀ l) (id : UInt64) :
    let made := recordsIn l.backend.files.system b₀.root id \ recordsIn b₀.files.system b₀.root id
    made.Finite ∧
      (timestamps id l.log).length + (made \ {t | t ∈ timestamps id l.log}).ncard = made.ncard := by
  intro made
  have hstamps : {t | t ∈ timestamps id l.log} = ↑(timestamps id l.log).toFinset := by
    ext t
    simp
  have hfinite : made.Finite := by
    have hwritten : made ⊆ {t | t ∈ timestamps id l.log} ∪
        {t | t ∈ l.log.filterMap fun e => e.1.timestamp?} := by
      rintro t ⟨ht, hnew⟩
      rcases h.cause id t ht with hold | hstored | ⟨u, path, cause, hmem, -, rfl⟩
      · exact absurd hold hnew
      · exact .inl hstored
      · exact .inr (List.mem_filterMap.2 ⟨_, hmem, rfl⟩)
    exact ((List.finite_toSet _).union (List.finite_toSet _)).subset hwritten
  have hlength : {t | t ∈ timestamps id l.log}.ncard = (timestamps id l.log).length := by
    rw [hstamps, Set.ncard_coe_finset, List.toFinset_card_of_nodup (h.nodup id)]
  have hstored : {t | t ∈ timestamps id l.log} ⊆ made := h.stored id
  refine ⟨hfinite, ?_⟩
  rw [← Set.ncard_sdiff_add_ncard_of_subset hstored hfinite, hlength, Nat.add_comm]

end DirectoryBackend

namespace BackendCall

variable {γ : Type} [Backend γ] {P : γ → Prop}

/-- What every call keeps is kept by every history. -/
theorem run_preserves (h : ∀ c : BackendCall, Preserves P c.perform) {g : γ} (hg : P g)
    (calls : List BackendCall) : P (run g calls) :=
  Preserves.foldl perform_after h hg calls

end BackendCall

namespace DirectoryBackend

open BackendLog

theorem LeftBehind.extends_ {root : String} {u : StoredUnit} {fs fs' : FileSystem} {e : WriterError}
    (h : LeftBehind root u fs e fs') : fs.Extends fs' := by
  cases h with
  | nothing cause => exact .refl fs
  | cut n text gets => exact gets.extends_
  | bare cause gets => exact gets.extends_

/-- The directory is where it was, and so is everything that it had. -/
def Stays (b₀ b : RunDirectory FaultySystem) : Prop :=
  b.root = b₀.root ∧ b₀.files.system.Extends b.files.system

theorem perform_stays {b₀ : RunDirectory FaultySystem} {r : Location}
    (hroot : b₀.files.system.locate b₀.root = .ok r) (c : BackendCall) :
    Preserves (Stays b₀) c.perform := by
  rintro b ⟨hb, hextends⟩
  have hlocate : b.files.system.locate b₀.root = .ok r := hextends.locate hroot
  have hstart : Has b₀.root b.units (fun f => f.system = b.files.system) b := ⟨hb, rfl, rfl⟩
  have hsame {units : List (String × Nat)} {b' : RunDirectory FaultySystem}
      (h : Has b₀.root units (fun f => SameRecords b₀.root b.files.system f.system) b') :
      Stays b₀ b' :=
    ⟨h.1, hextends.trans h.2.2.extends_⟩
  cases c with
  | createDigitizer id a =>
    exact (createDigitizer_same hlocate id a).imp (fun _ _ => hsame) (fun _ _ => hsame) b hstart
  | writeUnit u =>
    refine (writeUnit_outcome hlocate u).imp ?_ ?_ b hstart
    · exact fun _ _ h => ⟨h.1, hextends.trans h.2.2.extends_⟩
    · exact fun _ _ h => ⟨h.1, hextends.trans h.2.2.extends_⟩
  | close => exact (close_same hlocate).imp (fun _ _ => hsame) (fun _ _ => hsame) b hstart

/-- A unit that has records is never stored. -/
theorem answer_ne_ok {b : RunDirectory FaultySystem} {r : Location}
    (hroot : b.files.system.locate b.root = .ok r) {u : StoredUnit}
    (hu : u.timestamp ∈ recordsIn b.files.system b.root u.id) :
    (BackendCall.writeUnit u).answer b ≠ .ok () := by
  have hstart : Has b.root b.units (fun f => f.system = b.files.system) b := ⟨rfl, rfl, rfl⟩
  have hrun := writeUnit_outcome hroot u b hstart
  unfold BackendCall.answer
  cases hresult : (BackendCall.writeUnit u).perform b with
  | ok _ b' =>
    rw [show writeUnit u b = .ok () b' from hresult] at hrun
    exact absurd hu hrun.2.2.new
  | error e b' => nofun

/-- **What failed writes leave behind.** Whatever goes wrong with the files, and whatever has been
there: the files of records that calls have made are as many as the units that are counted, and
those that were stored before their digitizer got its count, and those that could not be stored
behind their records. A unit that is not stored leaves nothing, or a file of records; then it is
never stored. -/
theorem records_counted (b : RunDirectory FaultySystem)
    (hroot : b.files.system.isDirectory b.root = true) (hunits : b.units = [])
    (calls : List BackendCall) :
    let l := BackendCall.run ({ backend := b } : Logged (RunDirectory FaultySystem)) calls
    (∀ id,
      let made := recordsIn l.backend.files.system b.root id \ recordsIn b.files.system b.root id
      let half := made \ {t | t ∈ timestamps id l.log}
      made.Finite ∧ (∀ t ∈ half, Refused id t l.log) ∧
        (l.backend.units.lookup (digitizerName id)).getD 0 + forgotten id l.log + half.ncard =
          made.ncard) ∧
    ∀ u e b', writeUnit u l.backend = .error e b' →
      b'.units = l.backend.units ∧
      LeftBehind b.root u l.backend.files.system e b'.files.system ∧
      (u.timestamp ∈ recordsIn b'.files.system b.root u.id → ∀ later v, v.id = u.id →
        v.timestamp = u.timestamp →
          (BackendCall.writeUnit v).answer (BackendCall.run b' later) ≠ .ok ()) := by
  obtain ⟨r, hlocate, -⟩ := FileSystem.locate_of_isDirectory hroot
  intro l
  have htally : Tallied b l := by
    refine BackendCall.run_preserves (P := Tallied b) (fun c => ?_) ?_ calls
    · rw [Logged.perform_eq]
      exact Tallied.note hlocate c
    · exact ⟨rfl, hunits, .refl _, fun _ => .nil, nofun, fun _ _ => .inl⟩
  have hnow : l.backend.files.system.locate b.root = .ok r := htally.extends_.locate hlocate
  refine ⟨fun id => ?_, fun u e b' herror => ?_⟩
  · intro made half
    obtain ⟨hfinite, hcard⟩ := htally.ncard_eq id
    refine ⟨hfinite, ?_, ?_⟩
    · rintro t ⟨⟨ht, hnew⟩, hstored⟩
      exact ((htally.cause id t ht).resolve_left hnew).resolve_left hstored
    · rw [htally.units_eq, count_unitsOf]
      exact hcard
  · obtain ⟨hb, hsame, hleft⟩ := (writeUnit_outcome hnow u).error
      (show Has b.root l.backend.units (fun f => f.system = _) l.backend from
        ⟨htally.root_eq, rfl, rfl⟩) herror
    refine ⟨hsame, hleft, fun hrecords later v hid htimestamp => ?_⟩
    have hstart : b'.files.system.locate b'.root = .ok r := by
      rw [hb]
      exact hleft.extends_.locate hnow
    obtain ⟨hroot', hextends⟩ := BackendCall.run_preserves (P := Stays b')
      (perform_stays hstart) ⟨rfl, .refl _⟩ later
    refine answer_ne_ok (r := r) ?_ ?_
    · rw [hroot']
      exact hextends.locate hstart
    · rw [hid, htimestamp, hroot', hb]
      exact recordsIn_mono hextends hrecords

/-- A unit of digitizer 7. -/
def unitAt (timestamp : UInt64) : StoredUnit where
  id := 7
  timestamp := timestamp
  kind := .compact
  elements := 1
  elementSize := 8
  bytes := List.replicate 8 1

/-- The directory of digitizer 7 is there. Later the disk is full. -/
def fullDisk : RunDirectory FaultySystem where
  root := "r"
  files := {
    system := { entries := [(["0_7", "r"], .directory), (["r"], .directory)] }
    faults := [none, none, none, none, some (.cut 3 "No space left on device (os error 28)")] }

/-- A unit is stored before there is an entry for the digitizer, and another one cannot be. -/
def untilFull : List BackendCall :=
  [.writeUnit (unitAt 1), .createDigitizer 7 (.of .compact 8), .writeUnit (unitAt 2)]

/-- There are two files of records, and none of them is counted. What has been refused cannot be
stored again. -/
theorem fullDisk_counted :
    let l :=
      BackendCall.run ({ backend := fullDisk } : Logged (RunDirectory FaultySystem)) untilFull
    fullDisk.files.system.isDirectory fullDisk.root = true ∧ fullDisk.units = [] ∧
      (l.backend.units.lookup (digitizerName 7)).getD 0 = 0 ∧
      (recordsIn l.backend.files.system "r" 7 \ recordsIn fullDisk.files.system "r" 7).ncard = 2 ∧
      ∃ b', writeUnit (unitAt 2) l.backend = .error (.alreadyExists 7 2) b' ∧ ∀ later,
        (BackendCall.writeUnit (unitAt 2)).answer (BackendCall.run b' later) ≠ .ok () := by
  intro l
  have hroot : fullDisk.files.system.isDirectory fullDisk.root = true := by decide +kernel
  have hcount : (l.backend.units.lookup (digitizerName 7)).getD 0 = 0 := by decide +kernel
  have hforgotten : forgotten 7 l.log = 1 := by decide +kernel
  have hrefused : (l.log.all fun e => e.2.isOk || e.1.timestamp? = some 2) = true := by
    decide +kernel
  have hrecords : 2 ∈ recordsIn l.backend.files.system "r" 7 :=
    ⟨["r"], List.replicate 3 1, by decide +kernel, by decide +kernel⟩
  have hnew : 2 ∉ recordsIn fullDisk.files.system "r" 7 := by
    rw [mem_recordsIn (r := ["r"]) (by decide +kernel)]
    rintro ⟨bytes, hnode⟩
    cases hnode
  have hanswer : (BackendCall.writeUnit (unitAt 2)).answer l.backend =
      .error (.alreadyExists 7 2) := by decide +kernel
  obtain ⟨hcounts, hwrites⟩ := records_counted fullDisk hroot rfl untilFull
  obtain ⟨-, hcause, hcard⟩ := hcounts 7
  let made := recordsIn l.backend.files.system "r" 7 \ recordsIn fullDisk.files.system "r" 7
  -- Unit 2 is the only one that has records and is not stored.
  have hhalf : made \ {t | t ∈ timestamps 7 l.log} = {2} := by
    refine Set.Subset.antisymm (fun t ht => ?_) (Set.singleton_subset_iff.2 ⟨⟨hrecords, hnew⟩, ?_⟩)
    · obtain ⟨u, path, cause, hmem, -, rfl⟩ := hcause t ht
      have htwo : some u.timestamp = some 2 :=
        of_decide_eq_true (List.all_eq_true.1 hrefused _ hmem)
      exact Option.some.inj htwo
    · show 2 ∉ timestamps 7 l.log
      decide +kernel
  have htwo : made.ncard = 2 := by
    calc made.ncard = (l.backend.units.lookup (digitizerName 7)).getD 0 + forgotten 7 l.log +
          (made \ {t | t ∈ timestamps 7 l.log}).ncard := hcard.symm
      _ = 2 := by rw [hcount, hforgotten, hhalf, Set.ncard_singleton]
  refine ⟨hroot, rfl, hcount, htwo, ?_⟩
  unfold BackendCall.answer at hanswer
  split at hanswer
  next => cases hanswer
  next e b' hrun =>
    cases hanswer
    obtain ⟨-, hleft, hnever⟩ := hwrites (unitAt 2) (.alreadyExists 7 2) b' hrun
    exact ⟨b', hrun, fun later => hnever (recordsIn_mono hleft.extends_ hrecords) later _ rfl rfl⟩

end DirectoryBackend

end PulseDaq
