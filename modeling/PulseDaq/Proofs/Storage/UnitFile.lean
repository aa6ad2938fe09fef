import PulseDaq.Proofs.Record.Attributes
import PulseDaq.Proofs.Record.Unit
import PulseDaq.Proofs.Storage.Answers
import PulseDaq.Proofs.Storage.Directory
import PulseDaq.Storage.UnitFile

/-!
# Events, units and their files

* `WriterCall.Writes`: the events that a call is given.
* `WriterCall.Writes.of_unit`: the unit of the call is made of them.
* `Event.ofUnitFile_eq`: the file of a unit reads back as the events that the unit is made of.
-/

namespace PulseDaq

/-! ## The events of a call -/

namespace WriterCall

/-- The call is given the events to write, under a timestamp of a digitizer. -/
inductive Writes (id timestamp : UInt64) : List Event → WriterCall → Prop
  | buffer (kind : RecordKind) (buffer : RecordBuffer) (events : List Event)
    (hkind : ∀ e ∈ events, e.kind = kind) (hrecords : buffer.records = events.map Event.encode) :
    Writes id timestamp events (.writeBuffer kind buffer id timestamp)
  | set (events : EventSet) : Writes id timestamp events.toList (.writeSet events id timestamp)
  | list (events : List Event) : Writes id timestamp events (.writeEvents events id timestamp)

end WriterCall

/-- The records of a buffer are as long as the events that they are of. -/
theorem RecordBuffer.elementSize_of_records {buffer : RecordBuffer} {events : List Event}
    (hrecords : buffer.records = events.map Event.encode) :
    ∀ e ∈ events, e.elementSize = buffer.elementSize := by
  intro e he
  have hmem : e.encode ∈ buffer.records := hrecords ▸ List.mem_map_of_mem he
  obtain ⟨i, hi, heq⟩ := List.mem_map.1 hmem
  rw [← Event.length_encode, ← heq, RecordBuffer.length_record (List.mem_range.1 hi)]

namespace WriterCall.Writes

variable {id timestamp : UInt64} {events : List Event} {c : WriterCall}

theorem ne_close (h : Writes id timestamp events c) : c ≠ .close := by
  cases h
  all_goals nofun

theorem layouts_eq (h : Writes id timestamp events c) :
    c.layouts = events.map fun e => (e.kind, e.elementSize) := by
  cases h with
  | set events => rfl
  | list events => rfl
  | buffer kind buffer events hkind hrecords =>
    have hsize := RecordBuffer.elementSize_of_records hrecords
    have hcount : events.length = buffer.count := by
      rw [← buffer.length_records, hrecords, List.length_map]
    refine (List.eq_replicate_iff.2 ⟨by rw [List.length_map, hcount], fun x hx => ?_⟩).symm
    obtain ⟨e, he, rfl⟩ := List.mem_map.1 hx
    rw [hkind e he, hsize e he]

theorem layouts_ne_nil (h : Writes id timestamp events c) (hne : events ≠ []) : c.layouts ≠ [] := by
  rw [h.layouts_eq]
  exact fun hnil => hne (List.map_eq_nil_iff.1 hnil)

/-- The unit of the call is made of the events. -/
theorem of_unit (h : Writes id timestamp events c) {u : StoredUnit} (hu : c.unit = .ok (some u)) :
    u.Of events id timestamp := by
  cases h with
  | set events => exact StoredUnit.of_ofEvents hu
  | list events => exact StoredUnit.of_ofEvents hu
  | buffer kind buffer events hkind hrecords =>
    cases hu
    refine ⟨rfl, rfl, ?_, ?_, fun e he => ⟨hkind e he, ?_⟩⟩
    · show buffer.count = _
      rw [← buffer.length_records, hrecords, List.length_map]
    · show buffer.rawBytes = _
      rw [← buffer.flatten_records, hrecords, Event.encodeAll, List.flatMap_def]
    · exact RecordBuffer.elementSize_of_records hrecords e he

/-- Events that are alike make a unit. -/
theorem exists_unit (h : Writes id timestamp events c) (hne : events ≠ []) {kind : RecordKind}
    {size : Nat} (hlayout : ∀ e ∈ events, e.kind = kind ∧ e.elementSize = size) :
    ∃ u, c.unit = .ok (some u) ∧ u.Of events id timestamp := by
  have hlayouts : ∀ x ∈ c.layouts, x = (kind, size) := by
    intro x hx
    rw [h.layouts_eq] at hx
    obtain ⟨e, he, rfl⟩ := List.mem_map.1 hx
    rw [(hlayout e he).1, (hlayout e he).2]
  obtain ⟨u, hunit, -⟩ := WriterCall.unit_of_alike (h.layouts_ne_nil hne) fun x hx y hy =>
    (hlayouts x hx).trans (hlayouts y hy).symm
  exact ⟨u, hunit, h.of_unit hunit⟩

end WriterCall.Writes

/-! ## Reading a unit file -/

/-- A record takes some bytes, and not too many of them to be stated. -/
theorem Event.elementSize_bounds (e : Event) (h : e.samples.length < UInt16.size) :
    0 < e.elementSize ∧ e.elementSize < UInt64.size := by
  have hsize : 30 + 2 * UInt16.size < UInt64.size := by decide
  unfold elementSize RecordKind.elementSize
  cases e.kind
  all_goals
    simp only [RecordKind.compactSize, RecordKind.extendedSize, RecordKind.waveformHeaderSize]
    omega

open DirectoryBackend in
/-- The file of a unit reads back as the events that the unit is made of. -/
theorem Event.ofUnitFile_eq {fs : FileSystem} {root : String} {u : StoredUnit} {events : List Event}
    {id timestamp : UInt64} (hu : u.Of events id timestamp) (hne : events ≠ [])
    (hsamples : ∀ e ∈ events, e.samples.length < UInt16.size)
    (hdigitizer : fs.Holds (fileOf root u.id "digitizer.json")
      (Utf8.encode (DigitizerAttributes.of u.kind u.elementSize).toJson.pretty))
    (hrecords : fs.Holds (recordsFile root u) u.bytes) :
    Event.ofUnitFile fs (recordsFile root u) = .ok events := by
  obtain ⟨e, he⟩ := List.exists_mem_of_ne_nil events hne
  have hbounds := e.elementSize_bounds (hsamples e he)
  rw [(hu.layout e he).2] at hbounds
  have hparent : Path.parent? (recordsFile root u) = some (Path.join root (digitizerName u.id)) :=
    Path.parent?_join root (plain_digitizerName u.id) (plain_numbered _ (by decide))
  have hattributes : (Node.file (Utf8.encode
      (DigitizerAttributes.of u.kind u.elementSize).toJson.pretty)).readJson
        DigitizerAttributes.ofJson? = .ok (.of u.kind u.elementSize) :=
    Node.readJson_file (Json.parseBytes?_pretty (DigitizerAttributes.readable_toJson _))
      (DigitizerAttributes.ofJson?_toJson hbounds.2)
  have hunit := ofUnit_encodeAll hbounds.1 (fun e he => (hu.layout e he).1)
    (fun e he => (hu.layout e he).2) hsamples
  rw [← hu.bytes_eq] at hunit
  have hfind : fs.find (Path.join (Path.join root (digitizerName u.id)) "digitizer.json") = _ :=
    hdigitizer.find
  unfold ofUnitFile
  simp only [hparent, bind, Except.bind, hfind, Except.mapError, hattributes, hrecords.read]
  exact congrArg (Except.mapError UnitFileError.unit) hunit

end PulseDaq
