import PulseDaq.Acquisition.Opening
import PulseDaq.Acquisition.Supervisor
import PulseDaq.Board.Simulated
import PulseDaq.Command.Program
import PulseDaq.Run.Record
import PulseDaq.Run.Writer
import PulseDaq.Storage.UnitFile

/-!
# Acquiring as a run file says

The program `qdcsave` reads a run file, opens every digitizer, acquires from all of them until the
run's limit, and writes the run's record. Time comes from outside: a run takes its steps when it is
told what time it is.

* `Save.start`: read the run file and open the digitizers.
* `Save.step`: what all acquisitions do when their time has come.
* `Save.finish`: close the writer and record the run.
-/

namespace PulseDaq

/-- An acquisition with its last step, which takes time. -/
structure Worker where
  acquisition : Acquisition SimulatedBoard
  /-- The time at which its last step is over. -/
  due : Duration := .zero
  /-- What its last step has to tell when it is over. -/
  news : List Progress := []

namespace Worker

/-- The time that an acquisition has spent waiting and reading. -/
def spent (a : Acquisition SimulatedBoard) : Duration :=
  a.session.waited + a.session.board.elapsed

/-- When there is something to do or to tell next, if ever. -/
def due? (w : Worker) : Option Duration :=
  if w.acquisition.isFinished && w.news.isEmpty then none else some w.due

/-- The last step is over at the time `now`. -/
def isDue (w : Worker) (now : Duration) : Bool :=
  w.due.nanoseconds ≤ now.nanoseconds

/-- The next step, if the last one is over. A finished acquisition takes steps of no length. -/
def step (r : Reading) (now : Duration) (w : Worker) : StateM RunWriter Worker := fun writer =>
  if w.isDue now then
    let ((a, news), writer) := w.acquisition.step r writer
    let took := (spent a).nanoseconds - (spent w.acquisition).nanoseconds
    ({ acquisition := a, due := now + .saturate took, news }, writer)
  else (w, writer)

end Worker

/-- A run in progress. -/
structure Save where
  runFile : String
  run : Run
  started : Timestamp
  writer : RunWriter
  workers : List Worker
  supervisor : Supervisor

namespace Save

/-- The program. -/
def program : Program where
  name := "qdcsave"
  about := "Acquire DPP-QDC digitizer data into files"
  options := [
    { name := "version", spellings := ["-v", "--version"], takesValue := false
      about := "print version information" },
    { name := "verbose", spellings := ["--verbose"], takesValue := false
      about := "log every acquisition cycle" },
    { name := "config", spellings := ["--config"], takesValue := true
      about := "run file path" }]

/-- How the program ended. -/
inductive Outcome where
  | usage (e : UsageError)
  | help
  | version
  /-- The files at the end, where the record of the run is among them, and what went wrong. -/
  | done (files : FileSystem) (record : Option String) (failure : Option Report)
  deriving Inhabited

/-- The exit code of the program. -/
def Outcome.exitCode : Outcome → Nat
  | usage _ => 1
  | help => 0
  | version => 0
  | done _ _ failure => if failure.isSome then 1 else 0

/-- The run that a run file declares. It needs digitizers, each of them once. -/
def declaration (fs : FileSystem) (path : String) : Except Report Run := do
  let node ← (fs.find path).mapError fun e => [.text s!"cannot open {path}", .text e.message]
  let r ← (node.readJson Run.ofJson?).mapError fun e => [.text s!"cannot parse {path}", e.cause]
  if r.digitizers.isEmpty then
    throw [.text s!"{path} declares no digitizers"]
  if let some serial := r.duplicateSerial then
    throw [.text s!"{path} declares digitizer {serial.toNat} more than once"]
  return r

/-- The board behind a link. -/
def connect (noise : Simulation → Nat → Nat) : Link → SimulatedBoard
  | .simulated s => .ofSimulation s (noise s)

/-- The session of a digitizer, with the values to write to its board. -/
def session (r : Run) (noise : Simulation → Nat → Nat) (d : DigitizerSettings) :
    Session SimulatedBoard × List Setting :=
  let options : SessionOptions :=
    { retry := r.retry, readyPoll := r.readyPoll, bufferEvents := d.bufferEvents }
  (.ofBoard (connect noise d.link) options, d.settings)

/-- Open the writer and the digitizers of a run. -/
def openRun (r : Run) (runFile : String) (fs : FileSystem) (started : Timestamp)
    (noise : Simulation → Nat → Nat) : Except Outcome Save :=
  match RunWriter.ofRun r started.runId fs with
  | .error e fs => .error (.done fs none (some e.report))
  | .ok writer _ =>
    match Opening.openAll (r.digitizers.map (session r noise)) writer with
    | .error failure writer => .error (.done writer.dropped none (some failure.report))
    | .ok sessions writer =>
      .ok {
        runFile, started, writer
        run := r
        workers := sessions.map fun s => { acquisition := { session := s } }
        supervisor := { ids := sessions.map (·.id), limit := r.limit } }

/-- Start what a command line asks for. -/
def start (args : List String) (fs : FileSystem) (started : Timestamp)
    (noise : Simulation → Nat → Nat) : Except Outcome Save := do
  let a ← (Arguments.ofList program.options program.takesInputs args).mapError .usage
  if a.help then
    throw .help
  if a.switches.contains "version" then
    throw .version
  let some path := a.values.lookup "config"
    | throw (.done fs none (some [.text "no run file provided"]))
  let r ← (declaration fs path).mapError fun report => .done fs none (some report)
  openRun r path fs started noise

/-- Whether any acquisition goes on. -/
def isRunning (s : Save) : Bool :=
  !s.supervisor.isDone

/-- When there is something to do next: a step, news, or a look at the limit. -/
def due (s : Save) : Duration :=
  let earlier (d e : Duration) := if e.nanoseconds < d.nanoseconds then e else d
  (s.workers.filterMap Worker.due?).foldl earlier s.supervisor.lookDue

/-- One step of every acquisition whose last step is over. They all act at once: what they have to
tell of their last steps comes too late for any of these, while the limit may come before them. -/
def step (s : Save) (now : Duration) : Save :=
  let told := (s.workers.filter (·.isDue now)).flatMap (·.news)
  let supervisor := s.supervisor.tick now
  let reading : Reading :=
    { keepRunning := supervisor.keepRunning, now := UInt64.ofNat (now.milliseconds) }
  let (workers, writer) := s.workers.mapM (Worker.step reading now) s.writer
  { s with workers, writer, supervisor := told.foldl (fun v p => v.observe now p) supervisor }

/-- What has become of the acquisitions, in the order of their digitizers. -/
def results (s : Save) : List (UInt64 × Except SessionError Stats) :=
  s.workers.map fun w => (w.acquisition.session.id, w.acquisition.result)

/-- The digitizers whose acquisitions failed. -/
def failures (s : Save) : Nat :=
  s.results.countP fun x => match x.2 with
    | .error _ => true
    | .ok _ => false

/-- The record of a run that is over. -/
def record (s : Save) (milliseconds : UInt64) : Run :=
  s.run.record s.started milliseconds (s.supervisor.joinAll s.results s.run.digitizers)

/-- Close the writer and record a run that took the time `elapsed` and ended at `ended`. -/
def finish (s : Save) (elapsed : Duration) (ended : Timestamp) : Outcome :=
  match DataWriter.close s.writer with
  | .error e writer => .done writer.files none (some (.text "cannot close writer" :: e.report))
  | .ok _ writer =>
    let milliseconds := UInt64.ofNat (elapsed.milliseconds)
    let r := s.record milliseconds
    match r.writeRecord s.runFile ended writer.files with
    | .error report fs => .done fs none (some report)
    | .ok path fs =>
      let failed := s.failures
      .done fs (some path) <|
        if failed = 0 then none
        else some [.text s!"{failed} of {r.digitizers.length} digitizers failed"]

end Save

end PulseDaq
