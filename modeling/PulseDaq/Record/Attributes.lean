import PulseDaq.Record.Kind
import PulseDaq.Json.Codec

/-!
# What is stored about records

A digitizer's attributes are stored once, before its first unit; a unit's attributes beside it.

* `DigitizerAttributes.of`: the attributes of a digitizer whose records are of a kind and size.
-/

namespace PulseDaq

open Json (Value Fields)

namespace RecordKind

/-- Every kind. -/
def all : List RecordKind :=
  [compact, extended, waveform]

def toJson (kind : RecordKind) : Value :=
  .string kind.name

def ofJson? (v : Value) : Option RecordKind := do
  let name ← Json.bareVariant? v
  all.find? fun kind => kind.name = name

instance : Json.Codec RecordKind where
  toJson := toJson
  ofJson? := ofJson?

end RecordKind

namespace Scalar

/-- The name of a width. -/
def name : Scalar → String
  | u16 => "u16"
  | u32 => "u32"
  | u64 => "u64"

/-- Every width. -/
def all : List Scalar :=
  [u16, u32, u64]

def toJson (s : Scalar) : Value :=
  .string s.name

def ofJson? (v : Value) : Option Scalar := do
  let name ← Json.bareVariant? v
  all.find? fun s => s.name = name

end Scalar

namespace Field

def toJson (f : Field) : Value :=
  .object [("name", .string f.name), ("offset", .nat f.offset), ("type", f.scalar.toJson),
    ("count", .nat f.count)]

def ofJson? (v : Value) : Option Field := do
  let f ← Fields.ofValue? ["name", "offset", "type", "count"] v
  let name ← f.required "name" Json.string?
  let offset ← f.required "offset" Json.size?
  let scalar ← f.required "type" Scalar.ofJson?
  let count ← f.required "count" Json.size?
  some { name, offset, scalar, count }

end Field

/-- What is stored about a digitizer. -/
structure DigitizerAttributes where
  /-- The code of its record kind. -/
  dataType : UInt16
  kind : RecordKind
  elementSize : Nat
  /-- Where each value stands in its records. -/
  layout : List Field
  deriving DecidableEq, Repr

namespace DigitizerAttributes

/-- The attributes of a digitizer whose records are of `kind` and `elementSize` bytes. -/
def of (kind : RecordKind) (elementSize : Nat) : DigitizerAttributes where
  dataType := UInt16.ofNat kind.code
  kind := kind
  elementSize := elementSize
  layout := kind.layout (kind.samples elementSize)

def toJson (a : DigitizerAttributes) : Value :=
  .object [("data_type", .nat a.dataType.toNat), ("kind", a.kind.toJson),
    ("element_size", .nat a.elementSize), ("layout", .array (a.layout.map Field.toJson))]

def ofJson? (v : Value) : Option DigitizerAttributes := do
  let f ← Fields.ofValue? ["data_type", "kind", "element_size", "layout"] v
  let dataType ← f.required "data_type" Json.uint16?
  let kind ← f.required "kind" RecordKind.ofJson?
  let elementSize ← f.required "element_size" Json.size?
  let layout ← f.required "layout" (Json.list? Field.ofJson?)
  some { dataType, kind, elementSize, layout }

instance : Json.Codec DigitizerAttributes where
  toJson := toJson
  ofJson? := ofJson?

end DigitizerAttributes

/-- What is stored about a unit. -/
structure UnitAttributes where
  /-- Milliseconds since the start of the run. -/
  timestamp : UInt64
  elements : Nat
  elementSize : Nat
  deriving DecidableEq, Repr

namespace UnitAttributes

def toJson (a : UnitAttributes) : Value :=
  .object [("globalTimestamp", .nat a.timestamp.toNat), ("elements", .nat a.elements),
    ("elementSize", .nat a.elementSize)]

def ofJson? (v : Value) : Option UnitAttributes := do
  let f ← Fields.ofValue? ["globalTimestamp", "elements", "elementSize"] v
  let timestamp ← f.required "globalTimestamp" Json.uint64?
  let elements ← f.required "elements" Json.size?
  let elementSize ← f.required "elementSize" Json.size?
  some { timestamp, elements, elementSize }

instance : Json.Codec UnitAttributes where
  toJson := toJson
  ofJson? := ofJson?

end UnitAttributes

end PulseDaq
