/-!
# Bits and fields of machine words

Single bits of a word of any width, and contiguous fields of a 32-bit word.

* `Bits.set`, `Bits.clear`, `Bits.toggle`, `Bits.change`: one bit changes, every other stays.
* `Word.field`: the number in a run of bits of a 32-bit word; `Word.bit` is the field of one bit.
-/

namespace PulseDaq

namespace Bits

variable {w : Nat}

/-- Whether bit `i` is set. -/
def test (x : BitVec w) (i : Nat) : Bool :=
  x.getLsbD i

/-- `x` with bit `i` set. -/
def set (x : BitVec w) (i : Nat) : BitVec w :=
  x ||| BitVec.twoPow w i

/-- `x` with bit `i` cleared. -/
def clear (x : BitVec w) (i : Nat) : BitVec w :=
  x &&& ~~~BitVec.twoPow w i

/-- `x` with bit `i` flipped. -/
def toggle (x : BitVec w) (i : Nat) : BitVec w :=
  x ^^^ BitVec.twoPow w i

/-- `x` with bit `i` set or cleared, as `on` says. -/
def change (x : BitVec w) (i : Nat) (on : Bool) : BitVec w :=
  if on then set x i else clear x i

end Bits

namespace Word

/-- The number in the `len` bits of `w` from bit `lo` upward. -/
def field (w : UInt32) (lo len : Nat) : Nat :=
  w.toNat / Nat.pow 2 lo % Nat.pow 2 len

/-- Whether bit `i` of `w` is set. -/
def bit (w : UInt32) (i : Nat) : Bool :=
  field w i 1 == 1

/-- Bit `i` as a number: its weight if it is on, else nothing. -/
def weight (on : Bool) (i : Nat) : Nat :=
  if on then Nat.pow 2 i else 0

theorem field_lt (w : UInt32) (lo len : Nat) : field w lo len < Nat.pow 2 len :=
  Nat.mod_lt _ (Nat.two_pow_pos len)

end Word

end PulseDaq
