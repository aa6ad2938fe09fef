import PulseDaq.Board.Error
import PulseDaq.Board.Register
import PulseDaq.Readout.Buffer

/-!
# Boards

What an acquisition needs of a board: values by function and index, a readout buffer, and the calls
that start, read and stop it. Every call may fail and may change the board either way.

* `Board`: the calls of a board whose state is `β`.
* `Board.boardConfiguration`, `Board.acquisitionStatus`, `Board.groupEnableMask`: values that the
  acquisition interprets itself.
-/

namespace PulseDaq

/-- The calls of a board whose state is `β`. -/
class Board (β : Type) where
  serial : β → UInt64
  firmware : β → Firmware
  /-- The value of a function; the index is a group, a channel or a register address. -/
  get : FunctionId → Option UInt32 → EStateM BoardError β UInt32
  set : FunctionId → Option UInt32 → UInt32 → EStateM BoardError β Unit
  /-- A readout buffer, to be freed in the end. -/
  allocate : EStateM BoardError β ReadoutBuffer
  /-- Fill the buffer with what the board has acquired since the last read, maybe nothing. -/
  read : EStateM BoardError (β × ReadoutBuffer) Unit
  free : ReadoutBuffer → EStateM BoardError β Unit
  start : EStateM BoardError β Unit
  stop : EStateM BoardError β Unit
  close : EStateM BoardError β Unit

namespace Board

variable {β : Type} [Board β]

/-- The name of a board in messages. -/
def name (b : β) : String :=
  s!"V1740D_{(serial b).toNat}"

def boardConfiguration : EStateM BoardError β BoardConfiguration := do
  let value ← get .boardConfiguration none
  return { value }

def acquisitionStatus : EStateM BoardError β AcquisitionStatus := do
  let value ← get .acquisitionStatus none
  return { value }

/-- The enabled groups, in the low byte of their register. -/
def groupEnableMask : EStateM BoardError β UInt8 := do
  let value ← get .groupEnableMask none
  return value.toUInt8

end Board

/-- The address of a value on a board. -/
abbrev RegisterKey := FunctionId × Option UInt32

/-- The values that have been set on a board, the latest first. -/
abbrev Registers := List (RegisterKey × UInt32)

/-- Set one value. -/
def Registers.set (r : Registers) (key : RegisterKey) (value : UInt32) : Registers :=
  (key, value) :: r.filter fun entry => entry.1 ≠ key

end PulseDaq
