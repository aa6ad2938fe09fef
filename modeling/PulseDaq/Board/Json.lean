import PulseDaq.Board.Error
import PulseDaq.Board.Register
import PulseDaq.Json.Codec

/-!
# Board values as JSON

Functions are written by name; so are firmware families, an unknown one as an object with its code.
Registers are numbers.
-/

namespace PulseDaq

open Json (Value)

namespace FunctionId

def toJson (f : FunctionId) : Value :=
  .string f.name

def ofJson? (v : Value) : Option FunctionId :=
  Json.string? v >>= ofName?

instance : Json.Codec FunctionId where
  toJson := toJson
  ofJson? := ofJson?

end FunctionId

namespace Firmware

/-- The name of a firmware family. -/
def familyName : Firmware → String
  | pha => "Pha"
  | psd => "Psd"
  | ci => "Ci"
  | zle => "Zle"
  | qdc => "Qdc"
  | notDpp => "NotDpp"
  | unknown _ => "Unknown"

/-- The families that are known. -/
def families : List Firmware :=
  [pha, psd, ci, zle, qdc, notDpp]

def toJson : Firmware → Value
  | unknown code => .object [("Unknown", .integer code.toInt)]
  | f => .string f.familyName

def ofJson? (v : Value) : Option Firmware :=
  match Json.variant? v with
  | some ("Unknown", some code) =>
    (Json.integerIn? (-2147483648) 2147483648 code).map fun n => unknown (Int32.ofInt n)
  | _ => do
    let name ← Json.bareVariant? v
    families.find? fun f => f.familyName = name

instance : Json.Codec Firmware where
  toJson := toJson
  ofJson? := ofJson?

end Firmware

namespace BoardConfiguration

def toJson (c : BoardConfiguration) : Value :=
  .nat c.value.toNat

def ofJson? (v : Value) : Option BoardConfiguration :=
  (Json.uint32? v).map BoardConfiguration.mk

instance : Json.Codec BoardConfiguration where
  toJson := toJson
  ofJson? := ofJson?

end BoardConfiguration

namespace AcquisitionStatus

def toJson (s : AcquisitionStatus) : Value :=
  .nat s.value.toNat

def ofJson? (v : Value) : Option AcquisitionStatus :=
  (Json.uint32? v).map AcquisitionStatus.mk

instance : Json.Codec AcquisitionStatus where
  toJson := toJson
  ofJson? := ofJson?

end AcquisitionStatus

end PulseDaq
