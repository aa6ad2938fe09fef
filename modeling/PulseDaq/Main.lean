import PulseDaq.Command.Cat
import PulseDaq.Command.Save
import PulseDaq.Board.Noise
import PulseDaq.Timestamp.Epoch
import Std.Time.DateTime.Timestamp

/-!
# The programs

The first argument names the program, `qdccat` or `qdcsave`; the others are its own. What a program
does is decided on files as a value: here the part of the disk that it may look at is read into
such a value, and what the program adds to it is written back.
-/

namespace PulseDaq

/-! ## The disk -/

/-- The path of a location. -/
def Location.path (at_ : Location) : String :=
  "/" ++ "/".intercalate at_.reverse

/-- What the disk holds at a location below a directory. Anything that cannot be read counts as
missing. -/
def Location.load (at_ : Location) : IO (Option Node) := do
  try
    return some (.file (← IO.FS.readBinFile at_.path).toList)
  catch
    | .inappropriateType .. => return some .directory
    | _ => return none

namespace FileSystem

/-- Take in the next name on a path. -/
def loadName (state : FileSystem × Location) (name : String) : IO (FileSystem × Location) := do
  let (fs, at_) := state
  if name = "" ∨ name = "." then
    return state
  if name = ".." then
    return (fs, at_.tail)
  let here : Location := name :: at_
  if (fs.node? here).isSome then
    return (fs, here)
  match ← here.load with
  | some node => return ({ fs with entries := fs.entries ++ [(here, node)] }, here)
  | none => return (fs, here)

/-- Take in all that a path passes through. -/
def load (fs : FileSystem) (path : String) : IO FileSystem := do
  let start := if Path.isAbsolute path then [] else fs.current
  let (fs, _) ← (Path.names path).foldlM loadName (fs, start)
  return fs

/-- Take in all that some paths pass through. -/
def loadAll (fs : FileSystem) (paths : List String) : IO FileSystem :=
  paths.foldlM load fs

/-- The disk as far as the way to the current directory. -/
def ofDisk : IO FileSystem := do
  let path := (← IO.currentDir).toString
  ({ current := ((Path.names path).filter (· ≠ "")).reverse } : FileSystem).load path

/-- Write to the disk what has been added since `before`. -/
def save (before fs : FileSystem) : IO Unit :=
  (fs.entries.take (fs.entries.length - before.entries.length)).reverse.forM fun (at_, node) => do
    match node with
    | .directory => IO.FS.createDir at_.path
    | .file bytes =>
      let handle ← IO.FS.Handle.mk at_.path .writeNew
      handle.write ⟨bytes.toArray⟩

/-- The same files without what they hold, once that is on the disk. -/
def emptied (fs : FileSystem) : FileSystem :=
  { fs with
    entries := fs.entries.map fun (at_, node) =>
      match node with
      | .directory => (at_, .directory)
      | .file _ => (at_, .file []) }

end FileSystem

/-! ## Output -/

/-- Say what went wrong. Answers the exit code. -/
def Report.print (r : Report) : IO UInt32 := do
  IO.eprintln ("Error: " ++ "\n".intercalate (Report.lines (r.map Cause.message)))
  return 1

/-- Say why a command line makes no sense. Answers the exit code. -/
def UsageError.print (program : String) (e : UsageError) : IO UInt32 := do
  IO.eprintln e.message
  IO.eprintln s!"Run {program} --help for more information."
  return 1

/-! ## Printing stored units -/

namespace Cat

/-- The paths that a command line makes the program look at. -/
def paths (args : List String) : List String :=
  match Request.ofArguments args with
  | .error _ => []
  | .ok r => r.inputs.flatMap fun path =>
      [path, Path.join ((Path.parent? path).getD "") "digitizer.json"]

/-- Whether a command line makes the program read standard input. -/
def readsStandardInput (args : List String) : Bool :=
  match Request.ofArguments args with
  | .error _ => false
  | .ok r => !r.help && !r.version && (r.inputs.isEmpty || r.inputs.contains "-")

/-- The program. -/
def main (args : List String) : IO UInt32 := do
  let fs ← (← FileSystem.ofDisk).loadAll (paths args)
  let input ← if readsStandardInput args then (← IO.getStdin).readBinToEnd else pure .empty
  let outcome := run args fs input.toList
  IO.print outcome.printed
  match outcome with
  | .usage e => e.print program.name
  | .done _ (some report) => report.print
  | _ => return 0

end Cat

/-! ## Acquiring -/

namespace Save

/-- The moment that the clock shows. -/
def wallClock : IO Timestamp := do
  let n ← Std.Time.Timestamp.now
  match Timestamp.sinceEpoch? n.toNanosecondsSinceUnixEpoch.val.toNat with
  | some t => return t
  | none => throw (.userError "the clock is set to no year of the calendar")

/-- The time since the moment `start` of the steady clock. -/
def since (start : Nat) : IO Duration := do
  return .saturate ((← IO.monoNanosNow) - start)

/-- The paths that a run may look at besides its run file. -/
def pathsOf (r : Run) (runId : String) : List String :=
  let root := Path.join (r.output.getD ".") ("qdcsave-run-" ++ runId)
  Path.join root "index.json" :: r.serials.map fun id =>
    Path.join (Path.join root (DirectoryBackend.digitizerName id)) "digitizer.json"

/-- The part of the disk that a command line makes the program look at. -/
def filesFor (args : List String) (started : Timestamp) : IO FileSystem := do
  let fs ← FileSystem.ofDisk
  let .ok a := Arguments.ofList program.options program.takesInputs args | return fs
  let some path := a.values.lookup "config" | return fs
  let fs ← fs.load path
  match declaration fs path with
  | .error _ => return fs
  | .ok r => fs.loadAll (pathsOf r started.runId)

/-- Take steps when their time has come, until every acquisition has come to its end. -/
partial def acquire (s : Save) (start : Nat) : IO Save := do
  if !s.isRunning then
    return s
  let now ← since start
  if now.nanoseconds < s.due.nanoseconds then
    IO.sleep (UInt32.ofNat (min 250 ((s.due.nanoseconds - now.nanoseconds) / 1000000 + 1)))
  let before := s.writer.files
  let s := s.step (← since start)
  before.save s.writer.files
  acquire { s with writer := s.writer.withFiles s.writer.files.emptied } start

/-- Write the last files of a program to the disk and say how it ended. -/
def conclude (before : FileSystem) : Outcome → IO UInt32
  | .usage e => e.print program.name
  | .help => do IO.println program.help; return 0
  | .version => do IO.println program.version; return 0
  | .done files _ failure => do
    before.save files
    match failure with
    | some report => report.print
    | none => return 0

/-- The program. -/
def main (args : List String) : IO UInt32 := do
  let started ← wallClock
  let fs ← filesFor args started
  let seed ← IO.getRandomBytes 8
  let noise (s : Simulation) := noise (s.serial ^^^ UInt64.ofNat (Bytes.toNat seed.toList))
  match Save.start args fs started noise with
  | .error outcome => conclude fs outcome
  | .ok s =>
    fs.save s.writer.files
    let start ← IO.monoNanosNow
    let s ← acquire s start
    let elapsed ← since start
    let ended ← wallClock
    let files ← s.writer.files.loadAll
      [Run.recordPath s.runFile ended.fileText, Run.recordPath s.runFile ended.preciseFileText]
    conclude files ({ s with writer := s.writer.withFiles files }.finish elapsed ended)

end Save

end PulseDaq

open PulseDaq in
/-- Run the program that the first argument names. -/
def main (args : List String) : IO UInt32 :=
  match args with
  | "qdccat" :: rest => Cat.main rest
  | "qdcsave" :: rest => Save.main rest
  | _ => do
    IO.eprintln Cat.program.usage
    IO.eprintln Save.program.usage
    return 1
