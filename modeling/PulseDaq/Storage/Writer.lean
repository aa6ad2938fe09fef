import PulseDaq.Record.Attributes
import PulseDaq.Record.Buffer
import PulseDaq.Record.EventSet
import PulseDaq.Storage.Error

/-!
# Writers

Acquisitions hand their records to one writer. A writer stores them in units: runs of records of
one digitizer, one kind and one size, under one timestamp.

* `DataWriter`: what an acquisition calls.
* `Backend`: a way to store units.
* `Totals`: a writer that stores nothing and counts.
-/

namespace PulseDaq

/-- One batch of records of one digitizer. -/
structure StoredUnit where
  id : UInt64
  timestamp : UInt64
  kind : RecordKind
  elementSize : Nat
  elements : Nat
  /-- The records, back to back. -/
  bytes : Bytes
  deriving DecidableEq, Repr

namespace StoredUnit

/-- The records of a buffer as a unit. -/
def ofBuffer (kind : RecordKind) (buffer : RecordBuffer) (id timestamp : UInt64) : StoredUnit where
  id := id
  timestamp := timestamp
  kind := kind
  elementSize := buffer.elementSize
  elements := buffer.count
  bytes := buffer.rawBytes

/-- Events as a unit. They have to be alike; without any there is no unit. -/
def ofEvents (events : List Event) (id timestamp : UInt64) :
    Except WriterError (Option StoredUnit) :=
  match events with
  | [] => .ok none
  | e :: rest =>
    if rest.all fun f => f.kind = e.kind ∧ f.elementSize = e.elementSize then
      .ok <| some {
        id, timestamp
        kind := e.kind
        elementSize := e.elementSize
        elements := events.length
        bytes := Event.encodeAll events }
    else
      .error .mixed

end StoredUnit

/-- What an acquisition calls to have its records stored. -/
class DataWriter (ω : Type) where
  /-- Announce a digitizer. -/
  addDigitizer : UInt64 → EStateM WriterError ω Unit
  /-- Store the records of a buffer, given their kind, the digitizer and the timestamp. -/
  writeBuffer : RecordKind → RecordBuffer → UInt64 → UInt64 → EStateM WriterError ω Unit
  /-- Store a set of events in its order. -/
  writeSet : EventSet → UInt64 → UInt64 → EStateM WriterError ω Unit
  /-- Store events in the order given. -/
  writeEvents : List Event → UInt64 → UInt64 → EStateM WriterError ω Unit
  close : EStateM WriterError ω Unit

/-- A way to store units. -/
class Backend (γ : Type) where
  /-- Make room for a digitizer, before its first unit. -/
  createDigitizer : UInt64 → DigitizerAttributes → EStateM WriterError γ Unit
  writeUnit : StoredUnit → EStateM WriterError γ Unit
  /-- Nothing is stored after this. -/
  close : EStateM WriterError γ Unit

/-! ## Counting only -/

/-- A writer that stores nothing. It counts units, records and bytes modulo `2 ^ 64`. -/
structure Totals where
  units : UInt64 := 0
  elements : UInt64 := 0
  bytes : UInt64 := 0
  deriving DecidableEq, Repr, Inhabited

namespace Totals

/-- Count a unit, unless it is empty. -/
def add (elements bytes : Nat) (t : Totals) : Totals :=
  if elements = 0 then t
  else {
    units := t.units + 1
    elements := t.elements + UInt64.ofNat elements
    bytes := t.bytes + UInt64.ofNat bytes }

/-- Count events. -/
def addEvents (events : List Event) (t : Totals) : Totals :=
  t.add events.length (events.foldr (fun e n => e.elementSize + n) 0)

instance : DataWriter Totals where
  addDigitizer _ := pure ()
  writeBuffer _ buffer _ _ := modify (add buffer.count buffer.rawBytes.length)
  writeSet events _ _ := modify (addEvents events.toList)
  writeEvents events _ _ := modify (addEvents events)
  close := pure ()

end Totals

end PulseDaq
