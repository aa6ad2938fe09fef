import PulseDaq.Board.Retry
import PulseDaq.Board.Simulation
import PulseDaq.Session.Stats

/-!
# Run files

A run file declares an acquisition: the digitizers to read and how to configure them, where to
store the data, and when to stop. The record of a run is the declaration with the start, the
length and the totals of every digitizer filled in, and is itself a run file.

* `Run.toJson`, `Run.ofJson?`: a run file's value.
* `Run.duplicateSerial`: a digitizer declared more than once.
-/

namespace PulseDaq

open Json (Value Fields)

/-- When a run ends by itself. -/
inductive RunLimit where
  | duration (d : Duration)
  /-- Every digitizer has to complete so many cycles. -/
  | cycles (n : UInt64)
  deriving DecidableEq, Repr

namespace RunLimit

def toJson : RunLimit → Value
  | duration d => .object [("Duration", d.toJson)]
  | cycles n => .object [("Cycles", .nat n.toNat)]

def ofJson? (v : Value) : Option RunLimit :=
  match Json.variant? v with
  | some ("Duration", some d) => (Duration.ofJson? d).map duration
  | some ("Cycles", some n) => (Json.uint64? n).map cycles
  | _ => none

instance : Json.Codec RunLimit where
  toJson := toJson
  ofJson? := ofJson?

end RunLimit

/-- Where the data go. -/
inductive WriterKind where
  /-- Files below the output directory. -/
  | directory
  /-- Nowhere; they are only counted. -/
  | null
  deriving DecidableEq, Repr, Inhabited

namespace WriterKind

def toJson : WriterKind → Value
  | directory => .string "Directory"
  | null => .string "Null"

def ofJson? (v : Value) : Option WriterKind :=
  match Json.bareVariant? v with
  | some "Directory" => some directory
  | some "Null" => some null
  | _ => none

instance : Json.Codec WriterKind where
  toJson := toJson
  ofJson? := ofJson?

end WriterKind

/-- How a board is reached. -/
inductive Link where
  | simulated (simulation : Simulation)
  deriving DecidableEq, Repr

namespace Link

/-- The serial number of the board behind the link. -/
def serial : Link → UInt64
  | simulated s => s.serial

def toJson : Link → Value
  | simulated s => .object [("Simulated", s.toJson)]

def ofJson? (v : Value) : Option Link :=
  match Json.variant? v with
  | some ("Simulated", some s) => (Simulation.ofJson? s).map simulated
  | _ => none

instance : Json.Codec Link where
  toJson := toJson
  ofJson? := ofJson?

end Link

/-- A value to be written to a board. -/
structure Setting where
  function : FunctionId
  index : Option UInt32 := none
  value : UInt32
  deriving DecidableEq, Repr

namespace Setting

def toJson (s : Setting) : Value :=
  .object [("function", s.function.toJson), ("index", .option (fun i => .nat i.toNat) s.index),
    ("value", .nat s.value.toNat)]

def ofJson? (v : Value) : Option Setting := do
  let f ← Fields.ofValue? ["function", "index", "value"] v
  let function ← f.required "function" FunctionId.ofJson?
  let index ← f.optional "index" Json.uint32?
  let value ← f.required "value" Json.uint32?
  some { function, index, value }

instance : Json.Codec Setting where
  toJson := toJson
  ofJson? := ofJson?

end Setting

/-- One digitizer of a run. -/
structure DigitizerSettings where
  link : Link
  /-- Written to the board before it is used. -/
  settings : List Setting := []
  /-- Size of the record buffer in events, if it does not follow from the readout's. -/
  bufferEvents : Option Nat := none
  /-- Set in the record of a run. -/
  stats : Option Stats := none
  deriving DecidableEq, Repr

namespace DigitizerSettings

def toJson (d : DigitizerSettings) : Value :=
  .object <| [("link", d.link.toJson)]
    ++ (if d.settings.isEmpty then [] else [("settings", .array (d.settings.map Setting.toJson))])
    ++ [("buffer_events", .option .nat d.bufferEvents), ("stats", .option Stats.toJson d.stats)]

def ofJson? (v : Value) : Option DigitizerSettings := do
  let f ← Fields.ofValue? ["link", "settings", "buffer_events", "stats"] v
  let link ← f.required "link" Link.ofJson?
  let settings ← f.withDefault "settings" [] (Json.list? Setting.ofJson?)
  let bufferEvents ← f.optional "buffer_events" Json.size?
  let stats ← f.optional "stats" Stats.ofJson?
  some { link, settings, bufferEvents, stats }

instance : Json.Codec DigitizerSettings where
  toJson := toJson
  ofJson? := ofJson?

end DigitizerSettings

/-- A run, declared or recorded. -/
structure Run where
  name : String := ""
  /-- When the run started; set in its record. -/
  timestamp : Option Timestamp := none
  limit : Option RunLimit := none
  writer : WriterKind := .directory
  /-- The directory that the run's directory goes into, the current one if it is not given. -/
  output : Option String := none
  /-- How often a board is asked whether it is ready. -/
  readyPoll : Duration := .ofMilliseconds 10
  retry : RetryPolicy := {}
  /-- Milliseconds that the acquisition took; set in its record. -/
  duration : Option UInt64 := none
  digitizers : List DigitizerSettings := []
  deriving DecidableEq, Repr, Inhabited

namespace Run

/-- The serials of the digitizers, in the order in which they are declared. -/
def serials (r : Run) : List UInt64 :=
  r.digitizers.map (·.link.serial)

/-- The first number of a list that stands in front of it already, or among those `seen`. -/
def firstRepeated (seen : List UInt64) : List UInt64 → Option UInt64
  | [] => none
  | n :: rest => if seen.contains n then some n else firstRepeated (n :: seen) rest

/-- The first serial that is declared again. -/
def duplicateSerial (r : Run) : Option UInt64 :=
  firstRepeated [] r.serials

def toJson (r : Run) : Value :=
  .object [("name", .string r.name), ("timestamp", .option Timestamp.toJson r.timestamp),
    ("limit", .option RunLimit.toJson r.limit), ("writer", r.writer.toJson),
    ("output", .option .string r.output), ("ready_poll", r.readyPoll.toJson),
    ("retry", r.retry.toJson), ("duration", .option (fun n => .nat n.toNat) r.duration),
    ("digitizers", .array (r.digitizers.map DigitizerSettings.toJson))]

/-- Only the digitizers have to be given. -/
def ofJson? (v : Value) : Option Run := do
  let f ← Fields.ofValue? ["name", "timestamp", "limit", "writer", "output", "ready_poll",
    "retry", "duration", "digitizers"] v
  let standard : Run := {}
  let name ← f.withDefault "name" standard.name Json.string?
  let timestamp ← f.optional "timestamp" Timestamp.ofJson?
  let limit ← f.optional "limit" RunLimit.ofJson?
  let writer ← f.withDefault "writer" standard.writer WriterKind.ofJson?
  let output ← f.optional "output" Json.string?
  let readyPoll ← f.withDefault "ready_poll" standard.readyPoll Duration.ofJson?
  let retry ← f.withDefault "retry" standard.retry RetryPolicy.ofJson?
  let duration ← f.optional "duration" Json.uint64?
  let digitizers ← f.required "digitizers" (Json.list? DigitizerSettings.ofJson?)
  some { name, timestamp, limit, writer, output, readyPoll, retry, duration, digitizers }

instance : Json.Codec Run where
  toJson := toJson
  ofJson? := ofJson?

end Run

end PulseDaq
