import PulseDaq.Proofs.Storage.Stored
import PulseDaq.Proofs.Storage.UnitFile

/-!
# What is stored reads back, and stays

A writer over the directory of a run, and any history of its calls.

* `Synchronized.Keeps`, `Synchronized.Refuses`: events that have been written are found, and not
  written over.
* `DirectoryBackend.Indexed`: what the index of the run has for each digitizer.
* `Synchronized.Recorded`: the invariant. It is about the writer with a log of what its backend has
  answered; the log is dropped in the end.
* `Synchronized.stored_units_stay`: all of it, at every later moment.
-/

namespace PulseDaq

open Json (parseBytes?)

/-! ## A writer over a directory -/

namespace DirectoryBackend

/-- A directory of a run in which nothing is stored yet. -/
structure Fresh (b : DirectoryBackend) : Prop where
  units_eq : b.units = []
  isDirectory : b.files.isDirectory b.root = true
  index_missing : b.files.find (Path.join b.root "index.json") = .error .notFound

/-- The index has the number of units for the directory of each digitizer. -/
def Indexed (b : DirectoryBackend) (root : String) (ids : List UInt64) (count : UInt64 → Nat) :
    Prop :=
  ∃ bytes units, b.files.read (Path.join root "index.json") = .ok bytes ∧
    parseBytes? bytes = some (indexOf units) ∧
    units.Perm (ids.map fun id => (digitizerName id, count id))

theorem readable_indexOf (units : List (String × Nat)) : (indexOf units).Readable := by
  refine .object (List.forall_mem_singleton.2 (.object fun f hf => ?_))
  obtain ⟨⟨name, n⟩, -, rfl⟩ := List.mem_map.1 hf
  exact .integer n

/-- An index has one number for each digitizer. -/
theorem Indexed.unique {b : DirectoryBackend} {root : String} {ids : List UInt64}
    {count count' : UInt64 → Nat} (h : b.Indexed root ids count) (h' : b.Indexed root ids count')
    {id : UInt64} (hid : id ∈ ids) : count id = count' id := by
  obtain ⟨bytes, units, hread, hparse, hperm⟩ := h
  obtain ⟨bytes', units', hread', hparse', hperm'⟩ := h'
  obtain rfl : bytes = bytes' := Except.ok.inj (hread.symm.trans hread')
  have hindex : indexOf units = indexOf units' := Option.some.inj (hparse.symm.trans hparse')
  obtain rfl : units = units' := by
    simp only [indexOf, Json.Value.object.injEq, List.cons.injEq, Prod.mk.injEq, and_true,
      true_and] at hindex
    refine (List.map_inj_right ?_).1 hindex
    rintro ⟨name, n⟩ ⟨name', n'⟩ heq
    simpa [Json.Value.nat, Int.natCast_inj] using heq
  have hmem := (hperm.symm.trans hperm').mem_iff.1
    (List.mem_map_of_mem (f := fun id => (digitizerName id, count id)) hid)
  obtain ⟨id', -, heq⟩ := List.mem_map.1 hmem
  obtain ⟨hname, hcount⟩ := Prod.mk.inj heq
  rw [← hcount, digitizerName_inj hname]

/-- Where the name of the index is free, the directory can be closed. -/
theorem close_ok {b : DirectoryBackend} (h : b.files.Free b.root "index.json") :
    ∃ b', close b = .ok () b' := by
  obtain ⟨fs, hfs⟩ := h.createNew_ok plain_index (Utf8.encode b.index.pretty)
  refine ⟨{ b with files := fs }, ?_⟩
  have hcreate : Files.createNew (Path.join b.root "index.json") (Utf8.encode b.index.pretty)
      b.files = .ok () fs := hfs
  show onFiles _ _ b = _
  rw [onFiles, hcreate]

end DirectoryBackend

open DirectoryBackend

namespace Synchronized

/-- The events are read from the file of their unit, and their number and size from the file beside
it. -/
structure Keeps (v : Synchronized DirectoryBackend) (dir : String) (timestamp : UInt64)
    (events : List Event) : Prop where
  events_eq :
    Event.ofUnitFile v.backend.files (Path.join dir s!"{timestamp.toNat}.bin") = .ok events
  attributes_eq : ∃ bytes elementSize,
    v.backend.files.read (Path.join dir s!"{timestamp.toNat}.json") = .ok bytes ∧
      (∀ e ∈ events, e.elementSize = elementSize) ∧
      parseBytes? bytes =
        some (UnitAttributes.toJson { timestamp, elements := events.length, elementSize })

/-- Other events of the digitizer's layout are refused under the timestamp, and nothing changes. -/
def Refuses (v : Synchronized DirectoryBackend) (id timestamp : UInt64) : Prop :=
  ∃ a, v.known.lookup id = some a ∧ ∀ c events, WriterCall.Writes id timestamp events c →
    events ≠ [] → (∀ e ∈ events, e.kind = a.kind ∧ e.elementSize = a.elementSize) →
    c.perform v = .error (.alreadyExists id timestamp) v

/-- A unit is not stored over another one. -/
theorem write_again {v : Synchronized DirectoryBackend} {u : StoredUnit} {a : DigitizerAttributes}
    {bytes : Bytes} (hne : u.elements ≠ 0) (hopen : v.closed = false)
    (hknown : v.known.lookup u.id = some a)
    (hlayout : a.kind = u.kind ∧ a.elementSize = u.elementSize)
    (hfile : v.backend.files.Holds (recordsFile v.backend.root u) bytes) :
    write u v = .error (.alreadyExists u.id u.timestamp) v := by
  have hroom : ensureRoom u v = .ok () v := by
    refine (bind_of_ok (c := get) rfl).trans ?_
    simp only [hknown, hlayout, ne_eq, not_true, or_self, if_false]
    rfl
  have hwrite : onBackend (Backend.writeUnit u) v = .error (.alreadyExists u.id u.timestamp) v := by
    have hcall : Backend.writeUnit u v.backend = _ := writeUnit_again hfile
    rw [onBackend, hcall]
  unfold write
  rw [if_neg hne]
  show (if v.closed then _ else _ : EStateM WriterError (Synchronized DirectoryBackend) Unit) v = _
  rw [hopen]
  exact (bind_of_ok hroom).trans hwrite

/-- A writer over a directory, with the log of its calls, as a history leaves it. -/
structure Recorded (root : String) (w : Synchronized (Logged DirectoryBackend)) : Prop where
  sound : w.ledger.Sound
  furnished : w.ledger.Furnished
  reflects : Reflects root w.backend

namespace Recorded

variable {root : String} {w : Synchronized (Logged DirectoryBackend)}

theorem run (h : Recorded root w) (calls : List WriterCall) :
    Recorded root (WriterCall.run w calls) where
  sound := sound_run h.sound calls
  furnished := furnished_run h.furnished calls
  reflects := run_preserves (P := Reflects root)
    (fun c => Logged.perform_eq (γ := DirectoryBackend) c ▸ Reflects.note root c) h.reflects calls

/-- The kind and the record size of a stored unit are those of its digitizer, and stored, too. -/
theorem digitizer (h : Recorded root w) {u : StoredUnit} {earlier : BackendLog}
    (hlog : (.writeUnit u, .ok ()) :: earlier <:+ w.backend.log) :
    w.known.lookup u.id = some (.of u.kind u.elementSize) ∧
      w.backend.backend.files.Holds (fileOf root u.id "digitizer.json")
        (Utf8.encode (DigitizerAttributes.of u.kind u.elementSize).toJson.pretty) := by
  obtain ⟨later, hsplit⟩ := id hlog
  obtain ⟨a, ha, hkind, hsize⟩ := h.sound.lawful.created_first later u _ earlier hsplit.symm
  replace ha := hlog.subset (.tail _ ha)
  obtain rfl : a = .of u.kind u.elementSize := hkind ▸ hsize ▸ h.furnished _ _ _ ha
  obtain ⟨later', earlier', hsplit'⟩ := List.append_of_mem ha
  exact ⟨h.sound.lookup_eq ha, h.reflects.made _ _ ⟨later', hsplit'.symm⟩⟩

/-- What is stored is found. -/
theorem keeps (h : Recorded root w) {id timestamp : UInt64} {events : List Event} {u : StoredUnit}
    (hu : u.Of events id timestamp) (hne : events ≠ [])
    (hsamples : ∀ e ∈ events, e.samples.length < UInt16.size) {earlier : BackendLog}
    (hlog : (.writeUnit u, .ok ()) :: earlier <:+ w.backend.log) :
    w.forget.Keeps (Path.join root (digitizerName id)) timestamp events := by
  obtain ⟨hrecords, hattributes⟩ := h.reflects.made _ _ hlog
  have hevents := Event.ofUnitFile_eq hu hne hsamples (h.digitizer hlog).2 hrecords
  have hjson := Json.parseBytes?_pretty u.attributes.readable_toJson
  obtain ⟨rfl, rfl, helements, -, hlayout⟩ := hu
  refine ⟨hevents, _, u.elementSize, hattributes.read, fun e he => (hlayout e he).2, ?_⟩
  rw [← helements]
  exact hjson

/-- A unit is not stored over. -/
theorem refuses (h : Recorded root w) (hopen : w.closed = false) {u : StoredUnit}
    {earlier : BackendLog} (hlog : (.writeUnit u, .ok ()) :: earlier <:+ w.backend.log) :
    w.forget.Refuses u.id u.timestamp := by
  obtain ⟨hknown, -⟩ := h.digitizer hlog
  refine ⟨_, hknown, fun c events hwrites hne hlayout => ?_⟩
  obtain ⟨u', hunit, hu'⟩ := hwrites.exists_unit hne hlayout
  obtain ⟨e, he⟩ := List.exists_mem_of_ne_nil events hne
  have hkind : u.kind = u'.kind := (hlayout e he).1.symm.trans (hu'.layout e he).1
  have hsize : u.elementSize = u'.elementSize := (hlayout e he).2.symm.trans (hu'.layout e he).2
  have helements : u'.elements ≠ 0 := by
    rw [hu'.elements_eq]
    exact fun hzero => hne (List.length_eq_zero_iff.1 hzero)
  have hfile : w.backend.backend.files.Holds (recordsFile w.backend.backend.root u') u.bytes := by
    rw [h.reflects.root_eq, recordsFile, hu'.id_eq, hu'.timestamp_eq]
    exact (h.reflects.made _ _ hlog).1
  rw [perform_eq_write hwrites.ne_close, hunit, ← hu'.id_eq, ← hu'.timestamp_eq]
  exact write_again helements hopen (hu'.id_eq ▸ hknown) ⟨hkind, hsize⟩ hfile

/-- A directory that has not been closed can be. -/
theorem close (h : Recorded root w) (hopen : w.closed = false) :
    WriterCall.close.answer w = .ok () := by
  have hfree := h.reflects.index_free (h.sound.open_log hopen)
  rw [← h.reflects.root_eq] at hfree
  obtain ⟨b, hb⟩ := close_ok hfree
  have hcall : BackendCall.close.perform w.backend.backend = .ok () b := hb
  let w' : Synchronized (Logged DirectoryBackend) :=
    { w with backend := ⟨b, (.close, .ok ()) :: w.backend.log⟩, closed := true }
  have hbackend : onBackend (Logged.note .close) { w with closed := true } = .ok () w' := by
    rw [onBackend, Logged.note, hcall]
  have hclose : WriterCall.close.perform w = .ok () w' := by
    show (if w.closed then Pure.pure () else _ :
      EStateM WriterError (Synchronized (Logged DirectoryBackend)) Unit) w = _
    rw [hopen]
    exact hbackend
  rw [WriterCall.answer, hclose]

/-- The index counts the units that are stored. -/
theorem indexed (h : Recorded root w) {log : BackendLog}
    (hlog : (.close, .ok ()) :: log <:+ w.backend.log) {ids : List UInt64}
    (hids : ids.Nodup) (hcreated : ∀ id, id ∈ ids ↔ Created log id) :
    w.backend.backend.Indexed root ids fun id => BackendLog.storedOf id log := by
  have hfile : w.backend.backend.files.Holds (Path.join root "index.json")
      (Utf8.encode (indexOf (unitsOf log)).pretty) := h.reflects.made _ _ hlog
  have hcounts := counts_unitsOf (h.sound.lawful.of_suffix hlog).tail
  refine ⟨_, unitsOf log, hfile.read, Json.parseBytes?_pretty (readable_indexOf _), ?_⟩
  refine (List.perm_ext_iff_of_nodup ?_ ?_).2 fun ⟨name, n⟩ => ?_
  · exact (ordered_unitsOf log).imp fun hlt heq => String.ne_of_lt hlt (congrArg Prod.fst heq)
  · refine List.pairwise_map.2 (hids.imp fun hne heq => hne ?_)
    exact digitizerName_inj (congrArg Prod.fst heq)
  · rw [hcounts, List.mem_map]
    constructor
    · rintro ⟨id, hid, rfl, rfl⟩
      exact ⟨id, (hcreated id).2 hid, rfl⟩
    · rintro ⟨id, hid, heq⟩
      cases heq
      exact ⟨id, (hcreated id).1 hid, rfl, rfl⟩

/-- Events that have been taken are found at every later moment. -/
theorem kept (h : Recorded root w) {id timestamp : UInt64} {events : List Event} {c : WriterCall}
    (hwrites : WriterCall.Writes id timestamp events c) (hne : events ≠ [])
    (hsamples : ∀ e ∈ events, e.samples.length < UInt16.size) (hok : c.answer w = .ok ())
    (after : List WriterCall) :
    let v := WriterCall.run w (c :: after)
    v.forget.Keeps (Path.join root (digitizerName id)) timestamp events ∧
      (v.closed = false → v.forget.Refuses id timestamp) := by
  have hanswered := answered_after w c
  rw [hok] at hanswered
  obtain ⟨u, hunit, hhead⟩ := hanswered.of_ok (hwrites.layouts_ne_nil hne)
  obtain ⟨earlier, hlog⟩ := List.head?_eq_some_iff.1 hhead
  have hu := hwrites.of_unit hunit
  have hsuffix : (.writeUnit u, .ok ()) :: earlier <:+
      (WriterCall.run w (c :: after)).backend.log := hlog ▸ suffix_run (c.after w) after
  have hrun := h.run (c :: after)
  refine ⟨hrun.keeps hu hne hsamples hsuffix, fun hopen => ?_⟩
  have hrefuses := hrun.refuses hopen hsuffix
  rwa [hu.id_eq, hu.timestamp_eq] at hrefuses

/-- Closing counts what has been stored. -/
theorem counted (h : Recorded root w) (hopen : w.closed = false) (after : List WriterCall) :
    (WriterCall.run w (.close :: after)).forget.backend.Indexed root w.digitizers
      fun id => BackendLog.storedOf id w.backend.log := by
  have hanswered := answered_after w .close
  rw [h.close hopen] at hanswered
  have hlog : (WriterCall.close.after w).backend.log = _ := hanswered.log_of_close hopen
  obtain ⟨hsorted, hcreated⟩ := digitizers_of_sound h.sound
  have hsuffix := suffix_run (WriterCall.close.after w) after
  rw [hlog] at hsuffix
  exact (h.run (.close :: after)).indexed hsuffix (hsorted.imp fun hlt => UInt64.ne_of_lt hlt)
    hcreated

end Recorded

/-- Nothing is recorded of a new writer, and nothing is there. -/
theorem recorded_logged {b : DirectoryBackend} (h : b.Fresh) : Recorded b.root (logged b) where
  sound := sound_logged b
  furnished := nofun
  reflects := {
    root_eq := rfl
    units_eq := h.units_eq
    made := by
      intro c earlier hlog
      cases List.eq_nil_of_suffix_nil hlog
    index_free := fun _ => .of_find h.isDirectory plain_index h.index_missing }

/-- A new writer over a directory. -/
def ofDirectory (b : DirectoryBackend) : Synchronized DirectoryBackend where
  backend := b

/-- In the end the index has the number of units that have been stored for each digitizer. -/
theorem index_counts {b : DirectoryBackend} (hb : b.Fresh) (before : List WriterCall)
    (hopen : .close ∉ before) :
    let w := WriterCall.run (ofDirectory b) before
    WriterCall.close.answer w = .ok () ∧ ∀ after,
      (WriterCall.run w (.close :: after)).backend.Indexed b.root w.digitizers
        fun id => WriterCall.written id (ofDirectory b) before := by
  have hrecorded := (recorded_logged hb).run before
  have hclosed : (WriterCall.run (logged b) before).closed = false := closed_run (logged b) hopen
  have hforget :
      (WriterCall.run (logged b) before).forget = WriterCall.run (ofDirectory b) before :=
    run_forget (logged b) before
  have hcount (id : UInt64) :
      BackendLog.storedOf id (WriterCall.run (logged b) before).backend.log =
        WriterCall.written id (ofDirectory b) before := by
    rw [storedOf_run]
    exact (Nat.zero_add _).trans (written_forget id (logged b) before).symm
  rw [← hforget]
  refine ⟨(answer_forget _ _).trans (hrecorded.close hclosed), fun after => ?_⟩
  have hcounted := hrecorded.counted hclosed after
  rw [run_forget] at hcounted
  simp only [hcount] at hcounted
  exact hcounted

/-- Whatever is called: events that a writer over a directory has taken are found at every later
moment, none are stored over them, and in the end the index has the number of units that have been
stored for each digitizer. -/
theorem stored_units_stay {b : DirectoryBackend} (hb : b.Fresh) (before : List WriterCall) :
    let w := WriterCall.run (ofDirectory b) before
    (∀ c id timestamp events, WriterCall.Writes id timestamp events c → events ≠ [] →
      (∀ e ∈ events, e.samples.length < UInt16.size) → c.answer w = .ok () → ∀ after,
      let v := WriterCall.run w (c :: after)
      v.Keeps (b.digitizerDir id) timestamp events ∧
        (.close ∉ before → .close ∉ after → v.Refuses id timestamp)) ∧
    (.close ∉ before → WriterCall.close.answer w = .ok () ∧ ∀ after,
      (WriterCall.run w (.close :: after)).backend.Indexed b.root w.digitizers
        fun id => WriterCall.written id (ofDirectory b) before) := by
  have hrecorded := (recorded_logged hb).run before
  have hforget : _ = WriterCall.run (ofDirectory b) before := run_forget (logged b) before
  refine ⟨fun c id timestamp events hwrites hne hsamples hok after => ?_, index_counts hb before⟩
  rw [← hforget, answer_forget] at hok
  have hkept := hrecorded.kept hwrites hne hsamples hok after
  simp only [run_forget] at hkept
  refine ⟨hkept.1, fun hbefore hafter => hkept.2 ?_⟩
  have hcalls : .close ∉ c :: after := by
    rw [List.mem_cons, not_or]
    exact ⟨hwrites.ne_close.symm, hafter⟩
  exact (closed_run _ hcalls).trans (closed_run (logged b) hbefore)

/-- The directory of a run that has just been made. -/
def newRun : DirectoryBackend where
  root := "qdcsave-run-1"
  files := { entries := [(["qdcsave-run-1"], .directory)] }

theorem fresh_newRun : newRun.Fresh where
  units_eq := rfl
  isDirectory := by decide +kernel
  index_missing := by decide +kernel

example : (DirectoryBackend.create "" "1").run {} = .ok newRun newRun.files := by rfl

/-- Two writes to a new run, and more after them. -/
theorem newRun_keeps :
    let before : List WriterCall := [.writeEvents [.waveform { samples := [4, 5] }] 7 1]
    let events : List Event := [.waveform { samples := [1, 2] }, .waveform { samples := [0, 9] }]
    let w := WriterCall.run (ofDirectory newRun) before
    (WriterCall.writeEvents events 7 2).answer w = .ok () ∧
      (WriterCall.run w [.writeEvents events 7 2, .writeEvents events 7 3, .close]).Keeps
        (newRun.digitizerDir 7) 2 events ∧
      (WriterCall.run w [.writeEvents events 7 2, .writeEvents events 7 3]).Refuses 7 2 ∧
      (WriterCall.run w [.close]).backend.Indexed newRun.root w.digitizers
        fun id => WriterCall.written id (ofDirectory newRun) before := by
  intro before events w
  obtain ⟨hkept, hindex⟩ := stored_units_stay fresh_newRun before
  have hok : (WriterCall.writeEvents events 7 2).answer w = .ok () := by decide +kernel
  have hafter := hkept _ 7 2 events (.list events) nofun (by decide) hok
  exact ⟨hok, (hafter [.writeEvents events 7 3, .close]).1,
    (hafter [.writeEvents events 7 3]).2 (by simp [before]) (by simp),
    (hindex (by simp [before])).2 []⟩

/-- How many calls for the digitizer are answered well, those included that have no records. -/
def accepted (id : UInt64) (w : Synchronized DirectoryBackend) (calls : List WriterCall) : Nat :=
  (WriterCall.answers w calls).countP fun e => e.1.digitizer? = some id ∧ e.2.isOk

/-- A write without records is answered well, too, but the index does not count it. -/
theorem emptyWrite_uncounted :
    let calls : List WriterCall := [.writeEvents [.compact {}] 7 1, .writeEvents [] 7 2]
    let w := WriterCall.run (ofDirectory newRun) calls
    WriterCall.close.answer w = .ok () ∧
      ¬(WriterCall.run w [.close]).backend.Indexed newRun.root w.digitizers
        fun id => accepted id (ofDirectory newRun) calls := by
  intro calls w
  obtain ⟨hclose, hindex⟩ := index_counts fresh_newRun calls (by simp [calls])
  have hcreated : 7 ∈ w.digitizers := by decide +kernel
  refine ⟨hclose, fun hall => ?_⟩
  have hsame := (hindex []).unique hall hcreated
  have hwritten : WriterCall.written 7 (ofDirectory newRun) calls = 1 := by decide +kernel
  have haccepted : accepted 7 (ofDirectory newRun) calls = 2 := by decide +kernel
  rw [hwritten, haccepted] at hsame
  cases hsame

end Synchronized

end PulseDaq
