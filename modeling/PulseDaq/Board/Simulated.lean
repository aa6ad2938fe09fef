import PulseDaq.Board.Interface
import PulseDaq.Board.Simulation
import PulseDaq.Readout.Aggregate

/-!
# Simulated boards

A board that makes up its own data: well-formed board aggregates of events with random values, in
the format that its registers ask for. As its settings say, it fails transiently, takes a while to
become ready, reads nothing or breaks an aggregate.

* `SimulatedBoard.aggregate`: the aggregate of one read.
* `SimulatedBoard.corrupted`: an aggregate whose first group has one word too many.
-/

namespace PulseDaq

/-- What has happened to a simulated board. -/
structure Monitor where
  reads : UInt32 := 0
  statusPolls : UInt32 := 0
  transientFailures : UInt32 := 0
  started : Bool := false
  stopped : Bool := false
  closed : Bool := false
  freed : Bool := false
  deriving DecidableEq, Repr, Inhabited

/-- A board that makes up its own data. -/
structure SimulatedBoard where
  simulation : Simulation
  registers : Registers
  /-- The random numbers that the board draws, in this order. -/
  noise : Nat → Nat
  /-- How many of them it has drawn. -/
  drawn : Nat := 0
  failuresLeft : UInt32
  /-- The time of the last event. -/
  time : UInt32 := 0
  acquiring : Bool := false
  monitor : Monitor := {}
  /-- The time that reads have taken. -/
  elapsed : Duration := .zero

namespace SimulatedBoard

/-- A board as it is before the first call. -/
def ofSimulation (s : Simulation) (noise : Nat → Nat) : SimulatedBoard where
  simulation := s
  registers :=
    [((.boardConfiguration, none),
      ((({} : BoardConfiguration).withExtras s.extras).withWaveform s.waveform).value),
      ((.groupEnableMask, none), s.groupMask.toUInt32),
      ((.recordLength, none), s.recordLength)]
  noise := noise
  failuresLeft := s.transientFailures

/-- The link fails as often as the settings say before it works. -/
def link : EStateM BoardError SimulatedBoard Unit := do
  let b ← get
  if b.failuresLeft ≠ 0 then
    set { b with
      failuresLeft := b.failuresLeft - 1
      monitor := { b.monitor with transientFailures := b.monitor.transientFailures + 1 } }
    throw (.communication "simulated link timeout")

/-- A value of the board. One with an index falls back to the global value. -/
def register (b : SimulatedBoard) (f : FunctionId) (index : Option UInt32) : UInt32 :=
  ((b.registers.lookup (f, index)).or (b.registers.lookup (f, none))).getD 0

/-- The format of the events, as the registers ask for it. -/
def format (b : SimulatedBoard) : GroupFormat :=
  let configuration : BoardConfiguration := { value := b.register .boardConfiguration none }
  let samples := if configuration.waveform then b.register .recordLength none else 0
  .withSamples configuration.extras samples.toNat

/-- The next random number below `bound`. -/
def draw (bound : Nat) : StateM SimulatedBoard Nat := fun b =>
  (b.noise b.drawn % bound, { b with drawn := b.drawn + 1 })

/-- Sample `k` of an event. The gate opens at the fourth sample, at the trigger. -/
def sample (k : Nat) : StateM SimulatedBoard Sample := do
  let value ← draw 4096
  return {
    value := UInt16.ofNat value
    gate := 4 ≤ k ∧ k < 12
    trigger := k = 4
    holdoff := 4 ≤ k ∧ k < 8
    overthreshold := false }

/-- An event, up to 999 ticks after the one before it. -/
def event (format : GroupFormat) : StateM SimulatedBoard SyntheticEvent := do
  let gap ← draw 999
  modify fun b => { b with time := b.time + UInt32.ofNat (gap + 1) }
  let time := (← get).time
  let samples ← (List.range format.samples).mapM sample
  let baseline ← draw 4096
  let channel ← draw channelsPerGroup
  let charge ← draw 65536
  return {
    time, samples
    baseline := UInt16.ofNat baseline
    channel := UInt8.ofNat channel
    charge := UInt16.ofNat charge }

/-- The groups of a read, one after another. -/
def groups (format : GroupFormat) (events : Nat) (a : BoardAggregate) :
    List Group → StateM SimulatedBoard BoardAggregate
  | [] => return a
  | g :: rest => do
    let made ← (List.range events).mapM fun _ => event format
    groups format events (a.add (UInt8.ofNat g.val) format made) rest

/-- The aggregate of one read: as many events as the settings say in every enabled group. -/
def aggregate : StateM SimulatedBoard BoardAggregate := do
  let b ← get
  let enabled := GroupMask.groups (b.register .groupEnableMask none).toNat
  groups b.format b.simulation.eventsPerGroup.toNat .empty enabled

/-- Four bytes as a word that is one larger. -/
def grown (word : Bytes) : Bytes :=
  .ofNat 4 (word.toNat + 1)

/-- A readout whose board and first group claim one word more, which no event fills. Without any
group only half of the header is left. -/
def corrupted (bytes : Bytes) : Bytes :=
  if 8 < bytes.length then
    grown (bytes.take 4) ++ (bytes.drop 4).take 4 ++ grown ((bytes.drop 8).take 4)
      ++ bytes.drop 12 ++ List.replicate 4 0
  else
    bytes.take 4

/-- Whether a read is one of every `interval` reads; zero is no interval. -/
def isDue (read interval : UInt32) : Bool :=
  interval ≠ 0 && read % interval = 0

/-- The bytes of the read of number `n`. -/
def readout (n : UInt32) : StateM SimulatedBoard Bytes := do
  let b ← get
  if !b.acquiring || isDue n b.simulation.idleEvery then
    return []
  let made ← aggregate
  return if isDue n b.simulation.corruptEvery then corrupted made.toBytes else made.toBytes

/-- A value of the board; the status tells whether it is ready, as the settings say. -/
def getValue (f : FunctionId) (index : Option UInt32) :
    EStateM BoardError SimulatedBoard UInt32 := do
  ofExcept (f.check index false)
  link
  let b ← get
  if f = .acquisitionStatus then
    let polls := b.monitor.statusPolls + 1
    set { b with monitor := { b.monitor with statusPolls := polls } }
    let ready : Bool := b.simulation.pollsUntilReady < polls
    return ((({} : AcquisitionStatus).withReady ready ready).withRunning b.acquiring).value
  return b.register f index

def setValue (f : FunctionId) (index : Option UInt32) (value : UInt32) :
    EStateM BoardError SimulatedBoard Unit := do
  ofExcept (f.check index true)
  link
  modify fun b => { b with registers := b.registers.set (f, index) value }

/-- Read into a buffer. A readout that does not fit leaves the buffer empty. -/
def readInto : EStateM BoardError (SimulatedBoard × ReadoutBuffer) Unit := fun (b, buffer) =>
  match link b with
  | .error e b => .error e (b, buffer)
  | .ok _ b =>
    let n := b.monitor.reads + 1
    let b := { b with
      monitor := { b.monitor with reads := n }
      elapsed := b.elapsed + b.simulation.readDelay }
    let (bytes, b) := readout n b
    match buffer.fill bytes with
    | .ok buffer => .ok () (b, buffer)
    | .error e => .error e (b, buffer.clear)

instance : Board SimulatedBoard where
  serial b := b.simulation.serial
  firmware b := b.simulation.firmware
  get := getValue
  set := setValue
  allocate := do return { capacity := (← get).simulation.readoutBytes }
  read := readInto
  free _ := modify fun b => { b with monitor := { b.monitor with freed := true } }
  start := modify fun b =>
    { b with acquiring := true, monitor := { b.monitor with started := true } }
  stop := modify fun b =>
    { b with acquiring := false, monitor := { b.monitor with stopped := true } }
  close := modify fun b => { b with monitor := { b.monitor with closed := true } }

end SimulatedBoard

end PulseDaq
