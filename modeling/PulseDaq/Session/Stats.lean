import PulseDaq.Json.Codec

/-!
# Totals of an acquisition
-/

namespace PulseDaq

open Json (Value Fields)

/-- Running totals of one session. -/
structure Stats where
  bytesRead : UInt64 := 0
  eventsFound : UInt64 := 0
  cycles : UInt64 := 0
  /-- Cycles in which the board had nothing. -/
  idleCycles : UInt64 := 0
  /-- Cycles whose readout could not be decoded into records. -/
  lostCycles : UInt64 := 0
  /-- Cycles whose records could not be stored. -/
  failedWrites : UInt64 := 0
  deriving DecidableEq, Repr, Inhabited

namespace Stats

def toJson (s : Stats) : Value :=
  .object [("bytes_read", .nat s.bytesRead.toNat), ("events_found", .nat s.eventsFound.toNat),
    ("cycles", .nat s.cycles.toNat), ("idle_cycles", .nat s.idleCycles.toNat),
    ("lost_cycles", .nat s.lostCycles.toNat), ("failed_writes", .nat s.failedWrites.toNat)]

def ofJson? (v : Value) : Option Stats := do
  let f ← Fields.ofValue? ["bytes_read", "events_found", "cycles", "idle_cycles", "lost_cycles",
    "failed_writes"] v
  let bytesRead ← f.required "bytes_read" Json.uint64?
  let eventsFound ← f.required "events_found" Json.uint64?
  let cycles ← f.required "cycles" Json.uint64?
  let idleCycles ← f.required "idle_cycles" Json.uint64?
  let lostCycles ← f.required "lost_cycles" Json.uint64?
  let failedWrites ← f.required "failed_writes" Json.uint64?
  some { bytesRead, eventsFound, cycles, idleCycles, lostCycles, failedWrites }

instance : Json.Codec Stats where
  toJson := toJson
  ofJson? := ofJson?

end Stats

end PulseDaq
