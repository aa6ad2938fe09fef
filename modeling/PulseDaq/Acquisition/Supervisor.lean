import PulseDaq.Acquisition.Worker

/-!
# Watching over acquisitions

All acquisitions of a run share one flag that says whether to go on. It is cleared when the run is
found to have reached its limit. That is looked at whenever there is news, and after a while without
any; in between the limit may pass unnoticed.

* `Supervisor.reached`: whether the limit is reached.
* `Supervisor.observe`: what news of an acquisition changes.
* `Supervisor.tick`: what the time alone changes.
* `Supervisor.joinAll`: what is recorded of the digitizers once all acquisitions are over.
-/

namespace PulseDaq

/-- How long to wait for news before looking at the limit without any. -/
def newsPatience : Duration := .ofMilliseconds 250

/-- What is known of the acquisitions of a run. -/
structure Supervisor where
  /-- The digitizers of the run. -/
  ids : List UInt64
  limit : Option RunLimit := none
  /-- The latest totals of each digitizer. -/
  stats : List (UInt64 × Stats) := []
  /-- The digitizers whose acquisitions have come to their end. -/
  finished : List UInt64 := []
  keepRunning : Bool := true
  /-- When to look at the limit if there is no news until then. -/
  lookDue : Duration := newsPatience
  deriving DecidableEq, Repr

namespace Supervisor

/-- The latest totals of a digitizer. -/
def statsOf (s : Supervisor) (id : UInt64) : Stats :=
  (s.stats.lookup id).getD {}

/-- Whether a digitizer has completed so many cycles, or has finished. -/
def isThrough (s : Supervisor) (cycles : UInt64) (id : UInt64) : Bool :=
  s.finished.contains id || (s.stats.lookup id).any fun t => cycles ≤ t.cycles

/-- Whether the run has reached its limit after the time `elapsed`. -/
def reached (s : Supervisor) (elapsed : Duration) : Bool :=
  match s.limit with
  | some (.duration d) => d.nanoseconds ≤ elapsed.nanoseconds
  | some (.cycles n) => s.ids.all (s.isThrough n)
  | none => false

/-- Take down news. -/
def note (s : Supervisor) : Progress → Supervisor
  | .cycle id _ stats => { s with stats := (id, stats) :: s.stats.filter fun e => e.1 ≠ id }
  | .finished id stats _ =>
    { s with
      stats := (id, stats) :: s.stats.filter fun e => e.1 ≠ id
      finished := if s.finished.contains id then s.finished else id :: s.finished }

/-- Clear the flag if the limit is reached. -/
def look (s : Supervisor) (elapsed : Duration) : Supervisor :=
  { s with
    keepRunning := s.keepRunning && !s.reached elapsed
    lookDue := elapsed + newsPatience }

/-- Take down news, then look at the limit. -/
def observe (s : Supervisor) (elapsed : Duration) (p : Progress) : Supervisor :=
  (s.note p).look elapsed

/-- Look at the limit if there has been no news for long enough. -/
def tick (s : Supervisor) (elapsed : Duration) : Supervisor :=
  if s.lookDue.nanoseconds ≤ elapsed.nanoseconds then s.look elapsed else s

/-- Every acquisition has come to its end. -/
def isDone (s : Supervisor) : Bool :=
  s.ids.length ≤ s.finished.length

/-- Take down the result of an acquisition. One that failed tells no totals. -/
def join (s : Supervisor) (id : UInt64) : Except SessionError Stats → Supervisor
  | .ok stats => { s with stats := (id, stats) :: s.stats.filter fun e => e.1 ≠ id }
  | .error _ => s

/-- Take down the results of the acquisitions, which stand in the order of the digitizers. The entry
of a digitizer gets what is then known of the acquisition in its place; an entry without an
acquisition stays as it is. -/
def joinAll : Supervisor → List (UInt64 × Except SessionError Stats) → List DigitizerSettings →
    List DigitizerSettings
  | s, (id, result) :: results, d :: digitizers =>
    let s := s.join id result
    { d with stats := some (s.statsOf id) } :: joinAll s results digitizers
  | _, _, digitizers => digitizers

end Supervisor

end PulseDaq
