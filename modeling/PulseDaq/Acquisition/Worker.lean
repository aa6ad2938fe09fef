import PulseDaq.Session.Basic

/-!
# Acquiring from one digitizer

A prepared session is run to its end: the board is waited for and started, cycles follow one
another until the acquisition is told to stop or the board fails, and the session is closed either
way. All that comes from outside, that is, whether to keep running and what the clock says, is read
once for each step.

* `stamp`: timestamps of one digitizer, which never repeat.
* `Acquisition.step`: one step of a running acquisition.
* `Acquisition.run`: all of its steps.
-/

namespace PulseDaq

/-- The timestamp of a cycle: the time, or one past the `last` timestamp if the clock has not moved
on since. -/
def stamp (last : Option UInt64) (now : UInt64) : UInt64 :=
  match last with
  | some l => if now ≤ l then l + 1 else now
  | none => now

/-- News of an acquisition. -/
inductive Progress where
  /-- A cycle has been completed. -/
  | cycle (id timestamp : UInt64) (stats : Stats)
  /-- The session is closed; there is an error if the acquisition failed. -/
  | finished (id : UInt64) (stats : Stats) (error : Option SessionError)
  deriving DecidableEq, Repr

/-- Where an acquisition is. -/
inductive AcquisitionPhase where
  /-- The board is not started yet. -/
  | waiting
  /-- In between cycles, the last of which had this timestamp. -/
  | cycling (last : Option UInt64)
  | finished (error : Option SessionError)
  deriving DecidableEq, Repr

/-- A session on its way to its end. -/
structure Acquisition (β : Type) where
  session : Session β
  phase : AcquisitionPhase := .waiting

/-- What an acquisition sees of the world in one step. -/
structure Reading where
  keepRunning : Bool
  /-- Milliseconds since the start of the run. -/
  now : UInt64
  deriving DecidableEq, Repr

namespace Acquisition

variable {β ω : Type} [Board β] [DataWriter ω]

/-- The acquisition has come to its end. -/
def isFinished (a : Acquisition β) : Bool :=
  match a.phase with
  | .finished _ => true
  | _ => false

/-- The totals of an acquisition, or what it failed with. -/
def result (a : Acquisition β) : Except SessionError Stats :=
  match a.phase with
  | .finished (some e) => .error e
  | _ => .ok a.session.stats

/-- Close the session. The error of the acquisition stands before that of closing. -/
def finish (s : Session β) (error : Option SessionError) : Acquisition β × List Progress :=
  let ended (s : Session β) (error : Option SessionError) :=
    ({ session := s, phase := .finished error }, [.finished s.id s.stats error])
  match s.close with
  | .ok _ s => ended s error
  | .error e s => ended s (error <|> some e)

/-- Wait for the board. -/
def stepWaiting (r : Reading) (s : Session β) : Acquisition β × List Progress :=
  match s.poll with
  | .error e s => finish s (some e)
  | .ok true s => ({ session := s, phase := .cycling none }, [])
  | .ok false s =>
    if r.keepRunning then
      ({ session := { s with waited := s.waited + s.options.readyPoll } }, [])
    else
      finish s none

/-- One cycle, or the end. -/
def stepCycling (r : Reading) (last : Option UInt64) (s : Session β) (w : ω) :
    (Acquisition β × List Progress) × ω :=
  if r.keepRunning then
    let timestamp := stamp last r.now
    match Session.acquire timestamp (s, w) with
    | .error e (s, w) => (finish s (some e), w)
    | .ok _ (s, w) =>
      (({ session := s, phase := .cycling (some timestamp) },
        [.cycle s.id timestamp s.stats]), w)
  else
    (finish s none, w)

/-- One step. A finished acquisition stays as it is. -/
def step (r : Reading) (a : Acquisition β) (w : ω) : (Acquisition β × List Progress) × ω :=
  match a.phase with
  | .waiting => (stepWaiting r a.session, w)
  | .cycling last => stepCycling r last a.session w
  | .finished _ => ((a, []), w)

/-- What an acquisition sees when it has to stop. -/
def stopping : Reading where
  keepRunning := false
  now := 0

/-- Steps for all readings, with their news behind what is known so far, and then the end. -/
def runFrom (news : List Progress) : List Reading → Acquisition β → ω →
    (Acquisition β × List Progress) × ω
  | [], a, w =>
    let ((a, started), w) := step stopping a w
    let ((a, ended), w) := step stopping a w
    ((a, news ++ started ++ ended), w)
  | r :: rest, a, w =>
    let ((a, more), w) := step r a w
    runFrom (news ++ more) rest a w

/-- Run a session to its end, which comes at the latest when there are no more readings. -/
def run (readings : List Reading) (s : Session β) (w : ω) :
    (Acquisition β × List Progress) × ω :=
  runFrom [] readings { session := s } w

end Acquisition

end PulseDaq
