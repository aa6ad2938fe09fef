import PulseDaq.Record.Codec

/-!
# Units

A unit is a run of records of one kind and one size, stored back to back.

* `Event.ofUnit`: the events of a unit.
-/

namespace PulseDaq

/-- Why bytes are not a unit. -/
inductive UnitError where
  /-- The bytes are not a whole number of records. -/
  | ragged (size elementSize : Nat)
  /-- A record is not of its kind, or not of the size that it has room for. -/
  | record (index : Nat) (kind : RecordKind) (elementSize : Nat)
  deriving DecidableEq, Repr

/-- The wording of a unit error. -/
def UnitError.message : UnitError → String
  | .ragged size elementSize =>
    s!"{size} bytes is not a whole number of {elementSize} byte records"
  | .record index kind elementSize =>
    s!"record {index} is not a valid {kind.name} record of {elementSize} bytes"

/-- Piece `i` of bytes that are cut into pieces of `size`. -/
def Bytes.piece (bytes : Array UInt8) (size i : Nat) : Bytes :=
  (bytes.extract (i * size) ((i + 1) * size)).toList

namespace Event

/-- The event of a record that has to fill `elementSize` bytes. -/
def ofRecord (kind : RecordKind) (elementSize index : Nat) (record : Bytes) :
    Except UnitError Event :=
  match read? kind record with
  | some e => if e.elementSize = elementSize then .ok e else .error (.record index kind elementSize)
  | none => .error (.record index kind elementSize)

/-- The events of a unit whose records are of `kind` and take `elementSize` bytes each. -/
def ofUnit (bytes : Bytes) (kind : RecordKind) (elementSize : Nat) :
    Except UnitError (List Event) :=
  let data := bytes.toArray
  if elementSize = 0 ∨ data.size % elementSize ≠ 0 then
    .error (.ragged data.size elementSize)
  else
    (List.range (data.size / elementSize)).mapM fun i =>
      ofRecord kind elementSize i (Bytes.piece data elementSize i)

end Event

end PulseDaq
