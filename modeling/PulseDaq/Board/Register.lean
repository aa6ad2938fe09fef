import PulseDaq.Bits

/-!
# Register views

The bits of the two registers that the acquisition reads itself.

* `BoardConfiguration`: what the events of a board carry.
* `AcquisitionStatus`: whether a board is ready, and whether it runs.
-/

namespace PulseDaq

/-- The board configuration register. -/
structure BoardConfiguration where
  value : UInt32 := 0
  deriving DecidableEq, Repr, Inhabited

namespace BoardConfiguration

/-- Events carry samples. -/
def waveform (c : BoardConfiguration) : Bool :=
  Bits.test c.value.toBitVec 16

/-- Events carry the extras word. -/
def extras (c : BoardConfiguration) : Bool :=
  Bits.test c.value.toBitVec 17

def withWaveform (c : BoardConfiguration) (on : Bool) : BoardConfiguration where
  value := ⟨Bits.change c.value.toBitVec 16 on⟩

def withExtras (c : BoardConfiguration) (on : Bool) : BoardConfiguration where
  value := ⟨Bits.change c.value.toBitVec 17 on⟩

end BoardConfiguration

/-- The acquisition status register. -/
structure AcquisitionStatus where
  value : UInt32 := 0
  deriving DecidableEq, Repr, Inhabited

namespace AcquisitionStatus

/-- The board is acquiring. -/
def running (s : AcquisitionStatus) : Bool :=
  Bits.test s.value.toBitVec 2

/-- The board's clock is locked. -/
def pllReady (s : AcquisitionStatus) : Bool :=
  Bits.test s.value.toBitVec 7

def boardReady (s : AcquisitionStatus) : Bool :=
  Bits.test s.value.toBitVec 8

/-- An acquisition may start only when both the board and its clock are ready. -/
def ready (s : AcquisitionStatus) : Bool :=
  s.boardReady && s.pllReady

def withReady (s : AcquisitionStatus) (board pll : Bool) : AcquisitionStatus where
  value := ⟨Bits.change (Bits.change s.value.toBitVec 8 board) 7 pll⟩

def withRunning (s : AcquisitionStatus) (on : Bool) : AcquisitionStatus where
  value := ⟨Bits.change s.value.toBitVec 2 on⟩

end AcquisitionStatus

end PulseDaq
