import PulseDaq.Board.Retry
import PulseDaq.Board.Simulation
import PulseDaq.Proofs.Duration
import PulseDaq.Proofs.Json.Fields

/-!
# Board values read back

* `FunctionId.ofJson?_toJson`, `Firmware.ofJson?_toJson`: names of functions and firmware families.
* `RetryPolicy.ofJson?_toJson`, `Simulation.ofJson?_toJson`: records, with durations in them.
* `Simulation.readable_toJson`: the JSON form comes back from text.
-/

namespace PulseDaq

open Json (Fields)

namespace Duration

@[simp] theorem ofJson?_toJson (d : Duration) : ofJson? d.toJson = some d := by
  simp [ofJson?, toJson, ofText?_text]

@[simp] theorem readable_toJson (d : Duration) : d.toJson.Readable :=
  .string _

end Duration

namespace FunctionId

@[simp] theorem ofJson?_toJson (f : FunctionId) : ofJson? f.toJson = some f := by
  cases f
  all_goals rfl

@[simp] theorem readable_toJson (f : FunctionId) : f.toJson.Readable :=
  .string _

end FunctionId

namespace Firmware

@[simp] theorem ofJson?_toJson (f : Firmware) : ofJson? f.toJson = some f := by
  cases f with
  | unknown code =>
    have hlow := code.le_toInt
    have hhigh := code.toInt_lt
    have hcode : Json.integerIn? (-2147483648) 2147483648 (.integer code.toInt) =
        some code.toInt := if_pos ⟨hlow, hhigh⟩
    show (Json.integerIn? _ _ (.integer code.toInt)).map (fun n => unknown (Int32.ofInt n)) = _
    rw [hcode, Option.map_some, Int32.ofInt_toInt]
  | _ => rfl

@[simp] theorem readable_toJson (f : Firmware) : f.toJson.Readable := by
  cases f with
  | unknown code => exact .object (by simp)
  | _ => exact .string _

end Firmware

namespace RetryPolicy

@[simp] theorem ofJson?_toJson (p : RetryPolicy) : ofJson? p.toJson = some p := by
  unfold ofJson? toJson
  rw [Fields.ofValue?_object, Option.bind_eq_bind, Option.bind_some]
  · simp [Fields.withDefault_cons_of_ne]
  · exact List.Sublist.refl _
  · decide

@[simp] theorem readable_toJson (p : RetryPolicy) : p.toJson.Readable :=
  .object (by simp)

end RetryPolicy

namespace Simulation

/-- The size of a readout is one that 64 bits can hold. -/
def Sized (s : Simulation) : Prop :=
  s.readoutBytes < UInt64.size

theorem ofJson?_toJson {s : Simulation} (h : s.Sized) : ofJson? s.toJson = some s := by
  have hbytes := Json.size?_nat h
  have hseed : Json.nullable Json.uint64? (.option (fun n => .nat n.toNat) s.seed) = some s.seed :=
    Json.nullable_option nofun fun n _ => Json.uint64?_nat n
  unfold ofJson? toJson
  rw [Fields.ofValue?_object, Option.bind_eq_bind, Option.bind_some]
  · simp [Fields.withDefault_cons_of_ne, hbytes, hseed]
  · exact List.Sublist.refl _
  · decide

@[simp] theorem readable_toJson (s : Simulation) : s.toJson.Readable :=
  .object (by simp [Json.Value.readable_option])

end Simulation

end PulseDaq
