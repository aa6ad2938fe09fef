import PulseDaq.Proofs.Board.Json
import PulseDaq.Proofs.Timestamp
import PulseDaq.Run.Declaration
import PulseDaq.Storage.UnitFile

/-!
# Run files read back

What a run is written as is a run file for it. Every part of a run comes back from its JSON form,
and none of the forms holds anything that text cannot stand for, so the run comes back from the
bytes of its text in either layout.

* `DigitizerSettings.ofJson?_toJson`, `Run.ofJson?_toJson`: declarations come back from their JSON
  forms.
* `Run.readJson_written`: a run is read from its written form.
-/

namespace PulseDaq

open Json (Fields)

namespace Timestamp

@[simp] theorem ofJson?_toJson (t : Timestamp) : ofJson? t.toJson = some t := by
  simp [ofJson?, toJson, ofText?_text]

@[simp] theorem readable_toJson (t : Timestamp) : t.toJson.Readable :=
  .string _

end Timestamp

namespace Stats

@[simp] theorem ofJson?_toJson (s : Stats) : ofJson? s.toJson = some s := by
  unfold ofJson? toJson
  rw [Fields.ofValue?_object, Option.bind_eq_bind, Option.bind_some]
  · simp [Fields.required_cons_of_ne]
  · exact List.Sublist.refl _
  · decide

@[simp] theorem readable_toJson (s : Stats) : s.toJson.Readable :=
  .object (by simp)

end Stats

namespace RunLimit

@[simp] theorem ofJson?_toJson (l : RunLimit) : ofJson? l.toJson = some l := by
  cases l with
  | duration d => simp [toJson, ofJson?, Json.variant?]
  | cycles n => simp [toJson, ofJson?, Json.variant?]

theorem toJson_ne_null (l : RunLimit) : l.toJson ≠ .null := by
  cases l with
  | duration d => nofun
  | cycles n => nofun

@[simp] theorem readable_toJson (l : RunLimit) : l.toJson.Readable := by
  cases l with
  | duration d => exact .object (by simp)
  | cycles n => exact .object (by simp)

end RunLimit

namespace WriterKind

@[simp] theorem ofJson?_toJson (w : WriterKind) : ofJson? w.toJson = some w := by
  cases w with
  | directory => rfl
  | null => rfl

@[simp] theorem readable_toJson (w : WriterKind) : w.toJson.Readable := by
  cases w with
  | directory => exact .string _
  | null => exact .string _

end WriterKind

namespace Link

/-- The size of the board's readouts is one that 64 bits can hold. -/
def Sized : Link → Prop
  | simulated s => s.Sized

theorem ofJson?_toJson {l : Link} (h : l.Sized) : ofJson? l.toJson = some l := by
  obtain ⟨s⟩ := l
  have hs : s.Sized := h
  simp [toJson, ofJson?, Json.variant?, Simulation.ofJson?_toJson hs]

@[simp] theorem readable_toJson (l : Link) : l.toJson.Readable := by
  obtain ⟨s⟩ := l
  exact .object (by simp)

end Link

namespace Setting

@[simp] theorem ofJson?_toJson (s : Setting) : ofJson? s.toJson = some s := by
  have hindex : Json.nullable Json.uint32? (.option (fun i => .nat i.toNat) s.index) =
      some s.index := Json.nullable_option nofun fun i _ => Json.uint32?_nat i
  unfold ofJson? toJson
  rw [Fields.ofValue?_object, Option.bind_eq_bind, Option.bind_some]
  · simp [Fields.required_cons_of_ne, Fields.optional_cons_of_ne, hindex]
  · exact List.Sublist.refl _
  · decide

@[simp] theorem readable_toJson (s : Setting) : s.toJson.Readable :=
  .object (by simp [Json.Value.readable_option])

end Setting

namespace DigitizerSettings

/-- The sizes are ones that 64 bits can hold. -/
structure Sized (d : DigitizerSettings) : Prop where
  link : d.link.Sized
  bufferEvents : ∀ n ∈ d.bufferEvents, n < UInt64.size

/-- Settings are left out if there are none, and stand for none if they are left out. -/
theorem ofJson?_toJson {d : DigitizerSettings} (h : d.Sized) : ofJson? d.toJson = some d := by
  have hlink := Link.ofJson?_toJson h.link
  have hsettings : Json.list? Setting.ofJson? (.array (d.settings.map Setting.toJson)) =
      some d.settings := Json.list?_array fun s _ => s.ofJson?_toJson
  have hbuffer : Json.nullable Json.size? (.option .nat d.bufferEvents) = some d.bufferEvents :=
    Json.nullable_option nofun fun n hn => Json.size?_nat (h.bufferEvents n hn)
  have hstats : Json.nullable Stats.ofJson? (.option Stats.toJson d.stats) = some d.stats :=
    Json.nullable_option nofun fun s _ => s.ofJson?_toJson
  unfold ofJson? toJson
  rw [Fields.ofValue?_object, Option.bind_eq_bind, Option.bind_some]
  · cases hempty : d.settings.isEmpty with
    | true =>
      have hnone : d.settings = [] := List.isEmpty_iff.1 hempty
      simp [Fields.withDefault_cons_of_ne, Fields.optional_cons_of_ne, hlink, hbuffer, hstats,
        ← hnone]
    | false =>
      simp [Fields.withDefault_cons_of_ne, Fields.optional_cons_of_ne, hlink, hsettings, hbuffer,
        hstats]
  · cases d.settings.isEmpty with
    | true =>
      show ["link", "buffer_events", "stats"].Sublist _
      decide
    | false => exact List.Sublist.refl _
  · decide

@[simp] theorem readable_toJson (d : DigitizerSettings) : d.toJson.Readable := by
  have hsettings := Json.Value.readable_array_map fun s (_ : s ∈ d.settings) => s.readable_toJson
  refine .object ?_
  cases d.settings.isEmpty with
  | true => simp [Json.Value.readable_option]
  | false => simp [Json.Value.readable_option, hsettings]

end DigitizerSettings

namespace Run

/-- The sizes are ones that 64 bits can hold. -/
def Sized (r : Run) : Prop :=
  ∀ d ∈ r.digitizers, d.Sized

theorem ofJson?_toJson {r : Run} (h : r.Sized) : ofJson? r.toJson = some r := by
  have htimestamp : Json.nullable Timestamp.ofJson? (.option Timestamp.toJson r.timestamp) =
      some r.timestamp :=
    Json.nullable_option (by simp [Timestamp.toJson]) fun t _ => t.ofJson?_toJson
  have hlimit : Json.nullable RunLimit.ofJson? (.option RunLimit.toJson r.limit) = some r.limit :=
    Json.nullable_option RunLimit.toJson_ne_null fun l _ => l.ofJson?_toJson
  have houtput : Json.nullable Json.string? (.option .string r.output) = some r.output :=
    Json.nullable_option nofun fun s _ => Json.string?_string s
  have hduration : Json.nullable Json.uint64? (.option (fun n => .nat n.toNat) r.duration) =
      some r.duration := Json.nullable_option nofun fun n _ => Json.uint64?_nat n
  have hdigitizers : Json.list? DigitizerSettings.ofJson?
      (.array (r.digitizers.map DigitizerSettings.toJson)) = some r.digitizers :=
    Json.list?_array fun d hd => DigitizerSettings.ofJson?_toJson (h d hd)
  unfold ofJson? toJson
  rw [Fields.ofValue?_object, Option.bind_eq_bind, Option.bind_some]
  · simp [Fields.required_cons_of_ne, Fields.withDefault_cons_of_ne, Fields.optional_cons_of_ne,
      htimestamp, hlimit, houtput, hduration, hdigitizers]
  · exact List.Sublist.refl _
  · decide

theorem readable_toJson (r : Run) : r.toJson.Readable := by
  have hdigitizers := Json.Value.readable_array_map fun d (_ : d ∈ r.digitizers) =>
    d.readable_toJson
  exact .object (by simp [Json.Value.readable_option, hdigitizers])

/-- A file that holds a run, in either layout, is a run file for the same run. -/
theorem readJson_written {r : Run} (h : r.Sized) :
    (Node.file (Utf8.encode r.toJson.compact)).readJson ofJson? = .ok r ∧
      (Node.file (Utf8.encode r.toJson.pretty)).readJson ofJson? = .ok r :=
  have hread := ofJson?_toJson h
  ⟨Node.readJson_file (Json.parseBytes?_compact r.readable_toJson) hread,
    Node.readJson_file (Json.parseBytes?_pretty r.readable_toJson) hread⟩

/-- The record of a long run that ended in a leap second of a distant year, with a digitizer that
was declared in full and one that was not. -/
def distant : Run where
  name := "\"\\ \t µ"
  timestamp := some {
    date := ⟨-20000, 2, 29⟩, hour := 23, minute := 59, second := 60, nanosecond := 1500
    valid := by decide }
  limit := some (.duration .max)
  writer := .null
  output := some ""
  readyPoll := .zero
  retry := { initialDelay := .saturate 31557600000000001 }
  duration := some (.ofNat (UInt64.size - 1))
  digitizers := [
    { link := .simulated
        { firmware := .unknown (.ofInt (-7)), readoutBytes := UInt64.size - 1
          readDelay := .saturate 2629999999999999 }
      settings := [{ function := .register, index := some (.ofNat 32768), value := .ofNat 3 }]
      bufferEvents := some (UInt64.size - 1)
      stats := some {} },
    { link := .simulated {} }]

theorem readJson_distant : distant.Sized ∧
    (Node.file (Utf8.encode distant.toJson.compact)).readJson ofJson? = .ok distant ∧
      (Node.file (Utf8.encode distant.toJson.pretty)).readJson ofJson? = .ok distant := by
  have hsized : distant.Sized := by
    intro d hd
    simp only [distant, List.mem_cons, List.not_mem_nil, or_false] at hd
    obtain rfl | rfl := hd
    · refine ⟨show UInt64.size - 1 < UInt64.size by decide, ?_⟩
      rintro n ⟨⟩
      decide
    · exact ⟨show 1048576 < UInt64.size by decide, nofun⟩
  exact ⟨hsized, readJson_written hsized⟩

end Run

end PulseDaq
