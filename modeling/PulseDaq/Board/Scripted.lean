import PulseDaq.Board.Interface

/-!
# Scripted boards

A board that answers from queues and keeps a list of its calls. Any call can be made to fail.
-/

namespace PulseDaq

/-- A call of a board. -/
inductive BoardCall where
  | get (f : FunctionId) (index : Option UInt32)
  | set (f : FunctionId) (index : Option UInt32) (value : UInt32)
  | allocate
  | read
  | free (capacity : Nat)
  | start
  | stop
  | close
  deriving DecidableEq, Repr

/-- The calls that can be made to fail. -/
inductive BoardMethod where
  | get
  | set
  | allocate
  | read
  | free
  | start
  | stop
  | close
  deriving DecidableEq, Repr

/-- The method that a call is of. -/
def BoardCall.method : BoardCall → BoardMethod
  | .get .. => .get
  | .set .. => .set
  | .allocate => .allocate
  | .read => .read
  | .free .. => .free
  | .start => .start
  | .stop => .stop
  | .close => .close

/-- A board that answers from queues. -/
structure ScriptedBoard where
  serial : UInt64 := 1
  firmware : Firmware := .qdc
  registers : Registers := []
  /-- The next status values; a ready status follows them. -/
  status : List UInt32 := []
  /-- The next readouts; empty ones follow them. -/
  readouts : List Bytes := []
  /-- What the next calls of each method fail with, if they fail. -/
  failures : BoardMethod → List (Option BoardError) := fun _ => []
  readoutBytes : Nat := 4096
  /-- Reads that were not made to fail. -/
  reads : Nat := 0
  /-- The calls so far, the latest first. -/
  calls : List BoardCall := []

namespace ScriptedBoard

/-- The status of a board that is ready. -/
def readyStatus : UInt32 := 0x180

/-- Note a call and fail it if its method is to fail next. -/
def note (call : BoardCall) : EStateM BoardError ScriptedBoard Unit := do
  let b ← get
  let planned := b.failures call.method
  set { b with
    calls := call :: b.calls
    failures := fun m => if m = call.method then planned.tail else b.failures m }
  match planned.head? with
  | some (some e) => throw e
  | _ => return ()

def getValue (f : FunctionId) (index : Option UInt32) :
    EStateM BoardError ScriptedBoard UInt32 := do
  note (.get f index)
  let b ← get
  if f = .acquisitionStatus then
    set { b with status := b.status.tail }
    return b.status.headD readyStatus
  return (b.registers.lookup (f, index)).getD 0

def setValue (f : FunctionId) (index : Option UInt32) (value : UInt32) :
    EStateM BoardError ScriptedBoard Unit := do
  note (.set f index value)
  modify fun b => { b with registers := b.registers.set (f, index) value }

/-- Read the next readout into a buffer, which keeps its content if it does not fit. -/
def readInto : EStateM BoardError (ScriptedBoard × ReadoutBuffer) Unit := fun (b, buffer) =>
  match note .read b with
  | .error e b => .error e (b, buffer)
  | .ok _ b =>
    let next := { b with reads := b.reads + 1, readouts := b.readouts.tail }
    match b.readouts with
    | [] => .ok () (next, buffer.clear)
    | bytes :: _ =>
      match buffer.fill bytes with
      | .ok buffer => .ok () (next, buffer)
      | .error e => .error e (next, buffer)

instance : Board ScriptedBoard where
  serial b := b.serial
  firmware b := b.firmware
  get := getValue
  set := setValue
  allocate := do
    note .allocate
    return { capacity := (← get).readoutBytes }
  read := readInto
  free buffer := note (.free buffer.capacity)
  start := note .start
  stop := note .stop
  close := note .close

end ScriptedBoard

end PulseDaq
