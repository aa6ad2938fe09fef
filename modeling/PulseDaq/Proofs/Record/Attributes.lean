import PulseDaq.Proofs.Json.Fields
import PulseDaq.Record.Attributes

/-!
# Stored attributes read back

* `DigitizerAttributes.ofJson?_toJson`: attributes come back from their JSON form, if their sizes
  are ones that a file can hold.
* `DigitizerAttributes.readable_toJson`, `UnitAttributes.readable_toJson`: their JSON forms come
  back from text.
-/

namespace PulseDaq

open Json (Fields)

theorem RecordKind.ofJson?_toJson (kind : RecordKind) : ofJson? kind.toJson = some kind := by
  cases kind <;> rfl

theorem Scalar.ofJson?_toJson (s : Scalar) : ofJson? s.toJson = some s := by
  cases s <;> rfl

namespace Field

/-- The numbers of the field are ones that a file can hold. -/
structure Stored (f : Field) : Prop where
  offset : f.offset < UInt64.size
  count : f.count < UInt64.size

theorem ofJson?_toJson {f : Field} (h : f.Stored) : ofJson? f.toJson = some f := by
  have hoffset := Json.size?_nat h.offset
  have hcount := Json.size?_nat h.count
  have hscalar := Scalar.ofJson?_toJson f.scalar
  unfold ofJson? toJson
  rw [Fields.ofValue?_object, Option.bind_eq_bind, Option.bind_some]
  · simp [Fields.required_cons_of_ne, Json.string?, hoffset, hcount, hscalar]
  · exact List.Sublist.refl _
  · decide

theorem readable_toJson (f : Field) : f.toJson.Readable :=
  .object (by simp [Scalar.toJson])

end Field

/-- The fields of a record of less than `2 ^ 64` bytes can be stored. -/
theorem RecordKind.stored_layout (kind : RecordKind) {size : Nat} (h : size < UInt64.size) :
    ∀ f ∈ kind.layout (kind.samples size), f.Stored := by
  have hsamples : kind.samples size < UInt64.size := by
    cases kind
    all_goals
      simp only [samples]
      omega
  have hbounds : ∀ f ∈ kind.layout (kind.samples size),
      f.offset ≤ waveformHeaderSize ∧ (f.count ≤ 2 ∨ f.count = kind.samples size) := by
    cases kind
    all_goals simp [layout, layout.extendedFields, waveformHeaderSize]
  intro f hf
  obtain ⟨hoffset, hcount⟩ := hbounds f hf
  have hheader : waveformHeaderSize < UInt64.size := by decide
  have htwo : 2 < UInt64.size := by decide
  exact ⟨by omega, by omega⟩

namespace DigitizerAttributes

theorem ofJson?_toJson {kind : RecordKind} {size : Nat} (h : size < UInt64.size) :
    ofJson? (toJson (.of kind size)) = some (.of kind size) := by
  have hkind := RecordKind.ofJson?_toJson kind
  have hcode := Json.uint16?_nat (UInt16.ofNat kind.code)
  have hsize := Json.size?_nat h
  have hlayout := Json.list?_array fun f hf => Field.ofJson?_toJson (kind.stored_layout h f hf)
  unfold ofJson? toJson of
  generalize UInt16.ofNat kind.code = code at hcode ⊢
  rw [Fields.ofValue?_object, Option.bind_eq_bind, Option.bind_some]
  · simp [Fields.required_cons_of_ne, hkind, hcode, hsize, hlayout]
  · exact List.Sublist.refl _
  · decide

theorem readable_toJson (a : DigitizerAttributes) : a.toJson.Readable := by
  have hlayout := Json.Value.readable_array_map fun f (_ : f ∈ a.layout) => f.readable_toJson
  exact .object (by simp [RecordKind.toJson, hlayout])

end DigitizerAttributes

theorem UnitAttributes.readable_toJson (a : UnitAttributes) : a.toJson.Readable :=
  .object (by simp)

end PulseDaq
