import PulseDaq.Board.Interface
import PulseDaq.Board.Retry
import PulseDaq.Record.Fill
import PulseDaq.Run.Declaration
import PulseDaq.Session.Error
import PulseDaq.Session.Layout
import PulseDaq.Storage.Writer

/-!
# Sessions

The acquisition of one digitizer, from its configuration to the end.

```text
         initialise            prepare          start
closed -------------> initialised ----> ready ----------> acquiring
  ^                                       ^                  |
  |                                       +------ stop ------+
  +----------------- close (from any state) ----------------+
```

The kind of the records is decided once, by `initialise`; every cycle after that decodes into
records of that kind.

* `Session.configure`, `Session.initialise`, `Session.prepare`: before an acquisition.
* `Session.poll`, `Session.start`: wait for the board and start it.
* `Session.acquire`: one cycle of reading, decoding and writing.
* `Session.stop`, `Session.close`: the end.
-/

namespace PulseDaq

/-- What became of one cycle. -/
inductive Cycle where
  /-- The board had nothing. -/
  | idle
  | written (bytes events : Nat)
  /-- The readout could not be decoded into the record buffer; its data are dropped. -/
  | lost (e : FillError)
  /-- The records could not be stored; they are dropped. -/
  | writeFailed (e : WriterError)
  deriving DecidableEq, Repr

/-- How a session treats its board. -/
structure SessionOptions where
  retry : RetryPolicy := {}
  /-- The time between two questions whether the board is ready. -/
  readyPoll : Duration := .ofMilliseconds 10
  /-- Size of the record buffer in events, if it does not follow from the readout's. -/
  bufferEvents : Option Nat := none
  deriving DecidableEq, Repr

/-- The acquisition of one digitizer. -/
structure Session (β : Type) where
  board : β
  id : UInt64
  name : String
  state : SessionState := .closed
  options : SessionOptions
  layout : Option Layout := none
  readout : Option ReadoutBuffer := none
  /-- The records of one cycle. -/
  records : Option RecordBuffer := none
  stats : Stats := {}
  /-- The time spent between tries and questions. -/
  waited : Duration := .zero

namespace Session

variable {β ω : Type} [Board β] [DataWriter ω]

/-- The session of a board that nothing has been done with. -/
def ofBoard (board : β) (options : SessionOptions) : Session β where
  board := board
  id := Board.serial board
  name := Board.name board
  options := options

/-- Fail unless the session is in a state. -/
def require (operation : SessionOperation) (state : SessionState) :
    EStateM SessionError (Session β) Unit := do
  let s ← get
  if s.state ≠ state then
    throw (.state operation s.state)

/-- Let time pass. -/
def wait (d : Duration) : EStateM ε (Session β) Unit :=
  modify fun s => { s with waited := s.waited + d }

/-- A call of the board. -/
def call (c : EStateM BoardError β α) : EStateM BoardError (Session β) α := fun s =>
  match c s.board with
  | .ok a board => .ok a { s with board }
  | .error e board => .error e { s with board }

/-- A read of the board into the readout buffer. -/
def readInto (buffer : ReadoutBuffer) : EStateM BoardError (Session β) ReadoutBuffer := fun s =>
  let buffer := s.readout.getD buffer
  match Board.read (s.board, buffer) with
  | .ok _ (board, buffer) => .ok buffer { s with board, readout := some buffer }
  | .error e (board, buffer) => .error e { s with board, readout := some buffer }

/-- A call without retries. -/
def once (c : EStateM BoardError (Session β) α) : EStateM SessionError (Session β) α :=
  c.adaptExcept .board

/-- A call with the retries of the session's policy. -/
def retried (c : EStateM BoardError (Session β) α) : EStateM SessionError (Session β) α := do
  once ((← get).options.retry.attempt wait c)

/-- A value of the board. -/
def value (f : FunctionId) (index : Option UInt32) : EStateM SessionError (Session β) UInt32 :=
  retried (call (Board.get f index))

/-! ## Before an acquisition -/

/-- Write values to the board. -/
def configure (settings : List Setting) : EStateM SessionError (Session β) Unit := do
  require .configure .closed
  settings.forM fun s => retried (call (Board.set s.function s.index s.value))

/-- The trigger settings of a group. -/
def triggerSettings (g : Group) : EStateM SessionError (Session β) TriggerSettings := do
  let index := some (UInt32.ofNat g.val)
  let preTrigger ← value .dppPreTriggerSize index
  let holdOff ← value .dppTriggerHoldOffWidth index
  let gateWidth ← value .dppGateWidth index
  let gateOffset ← value .dppGateOffset index
  return { preTrigger, holdOff, gateWidth, gateOffset }

/-- The geometry that the board asks for. Only charge integration firmware has one. -/
def geometry : EStateM SessionError (Session β) Layout := do
  let firmware := Board.firmware (← get).board
  if !firmware.isSupported then
    throw (.board (.unsupportedFirmware firmware))
  let configuration ← retried (call Board.boardConfiguration)
  let mask ← retried (call Board.groupEnableMask)
  let groups := GroupMask.groups mask.toNat
  if groups.isEmpty then
    throw .noGroups
  let recordLength ← if configuration.waveform then value .recordLength (some 0) else pure 0
  if GroupFormat.maxSamples < recordLength.toNat then
    throw (.recordLength recordLength GroupFormat.maxSamples)
  let settings ← groups.mapM fun g => do return (g, ← triggerSettings g)
  return .ofRegisters configuration.extras configuration.waveform recordLength settings

/-- An operation of the session alone. -/
def alone (op : EStateM ε (Session β) α) : EStateM ε (Session β × ω) α := fun (s, w) =>
  match op s with
  | .ok a s => .ok a (s, w)
  | .error e s => .error e (s, w)

/-- A call of the writer. -/
def writing (op : EStateM WriterError ω α) : EStateM WriterError (Session β × ω) α := fun (s, w) =>
  match op w with
  | .ok a w => .ok a (s, w)
  | .error e w => .error e (s, w)

/-- Decide the geometry and announce the digitizer to the writer. -/
def initialise : EStateM SessionError (Session β × ω) Unit := do
  alone (require .initialise .closed)
  let layout ← alone geometry
  let id := (← get).1.id
  (writing (DataWriter.addDigitizer id)).adaptExcept .writer
  alone (modify fun s => { s with layout := some layout, state := .initialised })

/-- Slots of a record buffer that no option gives: as many as a readout can hold strides, and at
least one for every group. -/
def defaultSlots (layout : Layout) (readoutCapacity : Nat) : Nat :=
  max (readoutCapacity / (4 * layout.format.stride)) layout.groups.length

/-- The record buffer for a layout, beside a readout buffer of some capacity. A number of slots that
the options give is anything, so that its bytes may be more than 64 bits can count. The bytes of the
default follow from the readout, and stay below that for every readout that memory can hold. -/
def recordsFor (options : SessionOptions) (layout : Layout) (readoutCapacity : Nat) :
    Except BufferError RecordBuffer :=
  match options.bufferEvents with
  | some slots => RecordBuffer.ofElements slots layout.elementSize
  | none =>
    RecordBuffer.ofSize (defaultSlots layout readoutCapacity * layout.elementSize)
      layout.elementSize 0

/-- Allocate the readout buffer and the record buffer. The readout has to have room for the full
window of every group. -/
def prepare : EStateM SessionError (Session β) Unit := do
  require .prepare .initialised
  let s ← get
  let some layout := s.layout | throw (.state .prepare s.state)
  let readout ← once (call Board.allocate)
  let needed := layout.windowBytes
  if readout.capacity < needed then
    once (call (Board.free readout))
    throw (.board (.readoutOverflow readout.capacity needed))
  let records ← (ofExcept (recordsFor s.options layout readout.capacity) :
    EStateM BufferError (Session β) RecordBuffer).adaptExcept .buffer
  modify fun s => { s with readout := some readout, records := some records, state := .ready }

/-! ## Acquisition -/

/-- Ask once whether the board is ready, and start it if it is. -/
def poll : EStateM SessionError (Session β) Bool := do
  require .start .ready
  let status ← retried (call Board.acquisitionStatus)
  if !status.ready then
    return false
  once (call Board.start)
  modify fun s => { s with state := .acquiring }
  return true

/-- Ask until the board is ready, then start it. After `patience` vain questions one more is asked
before giving up. -/
def start : (patience : Nat) → EStateM SessionError (Session β) Bool
  | 0 => poll
  | patience + 1 => do
    if ← poll then
      return true
    wait (← get).options.readyPoll
    start patience

/-- Change the totals. -/
def count (change : Stats → Stats) : EStateM ε (Session β) Unit :=
  modify fun s => { s with stats := change s.stats }

/-- Decode a readout into the record buffer, which is empty if that fails. -/
def decodeInto (layout : Layout) (records : RecordBuffer) (bytes : Bytes) :
    EStateM ε (Session β) (Except FillError (Nat × RecordBuffer)) := do
  match records.clear.fill layout.kind bytes with
  | (.ok events, filled) =>
    count fun t => { t with eventsFound := t.eventsFound + UInt64.ofNat events }
    modify fun s => { s with records := some filled }
    return .ok (events, filled)
  | (.error e, filled) =>
    count fun t => { t with lostCycles := t.lostCycles + 1 }
    modify fun s => { s with records := some filled.clear }
    return .error e

/-- Hand the records of a cycle to the writer. -/
def store (layout : Layout) (records : RecordBuffer) (bytes events : Nat) (timestamp : UInt64) :
    EStateM ε (Session β × ω) Cycle := fun (s, w) =>
  match DataWriter.writeBuffer layout.kind records s.id timestamp w with
  | .ok _ w => .ok (.written bytes events) (s, w)
  | .error e w =>
    let stats := { s.stats with failedWrites := s.stats.failedWrites + 1 }
    .ok (.writeFailed e) ({ s with stats }, w)

/-- One cycle: read, decode and write under a timestamp. Only errors of the board are errors of the
cycle; bad data and failed writes are outcomes. -/
def acquire (timestamp : UInt64) : EStateM SessionError (Session β × ω) Cycle := do
  alone (require .acquire .acquiring)
  let s := (← get).1
  let (some layout, some readout, some records) := (s.layout, s.readout, s.records)
    | throw (.state .acquire s.state)
  let readout ← alone (retried (readInto readout))
  alone (count fun t => { t with cycles := t.cycles + 1 })
  let bytes := readout.bytes
  if bytes.isEmpty then
    alone (count fun t => { t with idleCycles := t.idleCycles + 1 })
    return .idle
  alone (count fun t => { t with bytesRead := t.bytesRead + UInt64.ofNat bytes.length })
  match ← alone (decodeInto layout records bytes) with
  | .error e => return .lost e
  | .ok (events, filled) => store layout filled bytes.length events timestamp

/-! ## The end -/

def stop : EStateM SessionError (Session β) Unit := do
  require .stop .acquiring
  retried (call Board.stop)
  modify fun s => { s with state := .ready }

/-- Hand the readout buffer back to the board, if there is one. -/
def release : EStateM SessionError (Session β) Unit := do
  let some readout := (← get).readout | return
  modify fun s => { s with readout := none }
  once (call (Board.free readout))

/-- Stop if needed and release the board. Nothing happens to a closed session. -/
def close : EStateM SessionError (Session β) Unit := do
  let state := (← get).state
  if state = .closed then
    return
  if state = .acquiring then
    stop
  release
  modify fun s => { s with records := none }
  once (call Board.close)
  modify fun s => { s with state := .closed }

end Session

end PulseDaq
