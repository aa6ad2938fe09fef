import PulseDaq.Board.Error
import PulseDaq.Record.Buffer
import PulseDaq.Storage.Error

/-!
# Session errors
-/

namespace PulseDaq

/-- Where a session is. -/
inductive SessionState where
  | closed
  | initialised
  | ready
  | acquiring
  deriving DecidableEq, Repr, Inhabited

/-- The name of a state. -/
def SessionState.name : SessionState → String
  | closed => "Closed"
  | initialised => "Initialized"
  | ready => "Ready"
  | acquiring => "Acquiring"

/-- What can be done with a session in one state only. -/
inductive SessionOperation where
  | configure
  | initialise
  | prepare
  | start
  | acquire
  | stop
  deriving DecidableEq, Repr

/-- The operation in messages. -/
def SessionOperation.text : SessionOperation → String
  | configure => "configure"
  | initialise => "initialize"
  | prepare => "prepare"
  | start => "start acquisition"
  | acquire => "acquire"
  | stop => "stop acquisition"

/-- Why an operation on a session failed. -/
inductive SessionError where
  /-- The session is not in the state for it. -/
  | state (operation : SessionOperation) (found : SessionState)
  | board (e : BoardError)
  | buffer (e : BufferError)
  | writer (e : WriterError)
  | noGroups
  /-- An event cannot carry so many samples. -/
  | recordLength (samples : UInt32) (most : Nat)
  deriving DecidableEq, Repr

/-- An error and the errors that it stands for. -/
def BoardError.report : BoardError → Report
  | .exhausted retries last => .text (exhausted retries last).message :: last.report
  | e => [.text e.message]

namespace SessionError

/-- The wording of a session error. -/
def message : SessionError → String
  | state operation found => s!"cannot {operation.text} while {found.name}"
  | board e => e.message
  | buffer e => e.message
  | writer e => e.message
  | noGroups => "no groups enabled"
  | recordLength samples most =>
    s!"record length {samples.toNat} exceeds the {most} samples an event can carry"

/-- The error and what is behind it. -/
def report : SessionError → Report
  | board e => e.report
  | writer e => e.report
  | e => [.text e.message]

end SessionError

end PulseDaq
