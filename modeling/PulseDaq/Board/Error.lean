import PulseDaq.Board.Function

/-!
# Board errors

What can go wrong with a call of a board. Only a communication error is transient, that is, worth
another try.
-/

namespace PulseDaq

/-- The firmware family that a board reports. -/
inductive Firmware where
  | pha
  | psd
  | ci
  | zle
  | qdc
  | notDpp
  | unknown (code : Int32)
  deriving DecidableEq, Repr, Inhabited

namespace Firmware

/-- Only the event format of charge integration can be decoded. -/
def isSupported (f : Firmware) : Bool :=
  f = qdc

/-- The firmware in messages. -/
def text : Firmware → String
  | pha => "PHA"
  | psd => "PSD"
  | ci => "CI"
  | zle => "ZLE"
  | qdc => "QDC"
  | notDpp => "non-DPP"
  | unknown code => s!"unknown ({code.toInt})"

end Firmware

/-- Why a call of a board failed. -/
inductive BoardError where
  /-- The link hiccuped. -/
  | communication (text : String)
  /-- A call failed transiently more often than it may. -/
  | exhausted (retries : UInt32) (last : BoardError)
  | unknownFunction (name : String)
  | readOnly (function : FunctionId)
  /-- The function takes no index, or needs one. -/
  | index (function : FunctionId) (index : Option UInt32)
  | unsupportedFirmware (firmware : Firmware)
  | readoutOverflow (capacity needed : Nat)
  /-- Whatever else the board reports. -/
  | board (code : Int32) (text : String)
  deriving DecidableEq, Repr, Inhabited

namespace BoardError

/-- Whether another try may succeed. -/
def isTransient : BoardError → Bool
  | communication _ => true
  | _ => false

/-- An optional index in messages. -/
def indexText : Option UInt32 → String
  | some i => s!"Some({i.toNat})"
  | none => "None"

/-- The wording of a board error. -/
def message : BoardError → String
  | communication text => s!"communication error: {text}"
  | exhausted retries last => s!"gave up after {retries.toNat} retries: {last.message}"
  | unknownFunction name => s!"unknown function {Text.quoted name}"
  | readOnly function => s!"{function.name} is read-only"
  | index function i => s!"{function.name} does not take index {indexText i}"
  | unsupportedFirmware firmware => s!"{firmware.text} firmware is not supported"
  | readoutOverflow capacity needed =>
    s!"readout buffer of {capacity} bytes cannot hold {needed} bytes"
  | board code text => s!"board error {code.toInt}: {text}"

end BoardError

namespace FunctionId

/-- Whether the function can be read or, if `write` is set, written with this index. -/
def check (f : FunctionId) (index : Option UInt32) (write : Bool) : Except BoardError Unit :=
  if write && f.access = .readOnly then
    .error (.readOnly f)
  else
    match f.indexing, index with
    | .global, some _ => .error (.index f index)
    | .indexed, none => .error (.index f index)
    | _, _ => .ok ()

end FunctionId

end PulseDaq
