import PulseDaq.Bytes
import PulseDaq.Board.Error

/-!
# Readout buffers

The memory that a board fills on every read.
-/

namespace PulseDaq

/-- A buffer of `capacity` bytes and what the last read put into it. -/
structure ReadoutBuffer where
  capacity : Nat
  bytes : Bytes := []
  deriving DecidableEq, Repr, Inhabited

namespace ReadoutBuffer

/-- Bytes put there by the last read. -/
def size (b : ReadoutBuffer) : Nat :=
  b.bytes.length

/-- Replace what is in the buffer. -/
def fill (b : ReadoutBuffer) (bytes : Bytes) : Except BoardError ReadoutBuffer :=
  if b.capacity < bytes.length then .error (.readoutOverflow b.capacity bytes.length)
  else .ok { b with bytes := bytes }

/-- Empty the buffer. -/
def clear (b : ReadoutBuffer) : ReadoutBuffer :=
  { b with bytes := [] }

end ReadoutBuffer

end PulseDaq
