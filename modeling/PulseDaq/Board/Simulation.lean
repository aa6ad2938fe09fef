import PulseDaq.Board.Json
import PulseDaq.Json.Time

/-!
# What a simulated board is like

The settings of a board that makes up its own data, and misbehaves on request.
-/

namespace PulseDaq

open Json (Value Fields)

/-- What a simulated board looks like and how it behaves. -/
structure Simulation where
  serial : UInt64 := 137
  firmware : Firmware := .qdc
  extras : Bool := true
  waveform : Bool := false
  /-- Samples per event, if events carry samples. -/
  recordLength : UInt32 := 0
  groupMask : UInt8 := 3
  eventsPerGroup : UInt32 := 16
  readoutBytes : Nat := 1048576
  /-- So many calls fail with a communication error at first. -/
  transientFailures : UInt32 := 0
  /-- So many status reads answer that the board is not ready. -/
  pollsUntilReady : UInt32 := 0
  /-- Every so-many-th read is empty; zero for none. -/
  idleEvery : UInt32 := 0
  /-- Every so-many-th read has a broken aggregate; zero for none. -/
  corruptEvery : UInt32 := 0
  /-- How long a read takes. -/
  readDelay : Duration := .zero
  seed : Option UInt64 := none
  deriving DecidableEq, Repr, Inhabited

namespace Simulation

/-- The names of the settings. -/
def fieldNames : List String :=
  ["serial", "firmware", "extras", "waveform", "record_length", "group_mask", "events_per_group",
    "readout_bytes", "transient_failures", "polls_until_ready", "idle_every", "corrupt_every",
    "read_delay", "seed"]

def toJson (s : Simulation) : Value :=
  .object [("serial", .nat s.serial.toNat), ("firmware", s.firmware.toJson),
    ("extras", .bool s.extras), ("waveform", .bool s.waveform),
    ("record_length", .nat s.recordLength.toNat), ("group_mask", .nat s.groupMask.toNat),
    ("events_per_group", .nat s.eventsPerGroup.toNat), ("readout_bytes", .nat s.readoutBytes),
    ("transient_failures", .nat s.transientFailures.toNat),
    ("polls_until_ready", .nat s.pollsUntilReady.toNat), ("idle_every", .nat s.idleEvery.toNat),
    ("corrupt_every", .nat s.corruptEvery.toNat), ("read_delay", s.readDelay.toJson),
    ("seed", .option (fun n => .nat n.toNat) s.seed)]

/-- What is not given has its default. -/
def ofJson? (v : Value) : Option Simulation := do
  let f ← Fields.ofValue? fieldNames v
  let standard : Simulation := {}
  let serial ← f.withDefault "serial" standard.serial Json.uint64?
  let firmware ← f.withDefault "firmware" standard.firmware Firmware.ofJson?
  let extras ← f.withDefault "extras" standard.extras Json.bool?
  let waveform ← f.withDefault "waveform" standard.waveform Json.bool?
  let recordLength ← f.withDefault "record_length" standard.recordLength Json.uint32?
  let groupMask ← f.withDefault "group_mask" standard.groupMask Json.uint8?
  let eventsPerGroup ← f.withDefault "events_per_group" standard.eventsPerGroup Json.uint32?
  let readoutBytes ← f.withDefault "readout_bytes" standard.readoutBytes Json.size?
  let transientFailures ← f.withDefault "transient_failures" standard.transientFailures Json.uint32?
  let pollsUntilReady ← f.withDefault "polls_until_ready" standard.pollsUntilReady Json.uint32?
  let idleEvery ← f.withDefault "idle_every" standard.idleEvery Json.uint32?
  let corruptEvery ← f.withDefault "corrupt_every" standard.corruptEvery Json.uint32?
  let readDelay ← f.withDefault "read_delay" standard.readDelay Duration.ofJson?
  let seed ← f.withDefault "seed" standard.seed (Json.nullable Json.uint64?)
  some {
    serial, firmware, extras, waveform, recordLength, groupMask, eventsPerGroup, readoutBytes,
    transientFailures, pollsUntilReady, idleEvery, corruptEvery, readDelay, seed }

instance : Json.Codec Simulation where
  toJson := toJson
  ofJson? := ofJson?

end Simulation

end PulseDaq
