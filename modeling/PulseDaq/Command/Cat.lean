import PulseDaq.Command.Program
import PulseDaq.Record.Table
import PulseDaq.Storage.UnitFile

/-!
# Printing stored units

The program `qdccat` prints units of records as tables. The kind and size of the records of a unit
file stand in the `digitizer.json` beside it; for standard input they are given as options.

* `Cat.run`: what the program prints, and how it ends.
-/

namespace PulseDaq.Cat

/-- The program. -/
def program : Program where
  name := "qdccat"
  about := "Decode stored units of digitizer records and print them as tab-separated values to "
    ++ "standard output. The record layout of each unit is read from the digitizer.json next to it."
  options := [
    { name := "version", spellings := ["-v", "--version"], takesValue := false
      about := "print version information" },
    { name := "data-type", spellings := ["-t", "--data-type"], takesValue := true
      about := "record kind when reading raw records from standard input: "
        ++ "1 (compact), 2 (extended) or 3 (waveform)" },
    { name := "element-size", spellings := ["-s", "--element-size"], takesValue := true
      about := "record size in bytes when reading from standard input" }]
  inputs := some
    ("input", "unit files; with no input or when input is '-', read from standard input")

/-- What a command line asks for. -/
structure Request where
  version : Bool := false
  help : Bool := false
  /-- The record kind of standard input. -/
  dataType : Option Nat := none
  /-- The record size of standard input. -/
  elementSize : Option Nat := none
  inputs : List String := []
  deriving DecidableEq, Repr

namespace Request

def ofArguments (args : List String) : Except UsageError Request := do
  let a ← Arguments.ofList program.options program.takesInputs args
  let dataType ← a.number? "data-type" UInt16.size
  let elementSize ← a.number? "element-size" UInt64.size
  return {
    version := a.switches.contains "version"
    help := a.help
    inputs := a.positionals
    dataType, elementSize }

end Request

/-- Where records come from. -/
inductive Source where
  | standardInput
  | file (path : String)
  deriving DecidableEq, Repr

/-- Check that an input is a file that is there. -/
def file (fs : FileSystem) (path : String) : Except Report Source :=
  match fs.find path with
  | .error e => .error [.text s!"cannot open {path}", .text e.message]
  | .ok .directory => .error [.text s!"{path} is not a file"]
  | .ok (.file _) => .ok (.file path)

/-- The sources that inputs name. A dash is standard input, which can be read only once. -/
def sources (fs : FileSystem) (standardInputTaken : Bool) :
    List String → Except Report (List Source)
  | [] => .ok []
  | "-" :: rest =>
    if standardInputTaken then
      .error [.text "cannot specify '-' for stdin twice"]
    else do
      return .standardInput :: (← sources fs true rest)
  | path :: rest => do
    let source ← file fs path
    return source :: (← sources fs standardInputTaken rest)

/-- The record kind and size of standard input. -/
def standardInputLayout (r : Request) : Except Report (RecordKind × Nat) :=
  match r.dataType >>= RecordKind.ofCode?, r.elementSize with
  | none, _ => .error [.text "reading standard input needs a valid --data-type"]
  | some kind, some size => .ok (kind, size)
  | some .waveform, none => .error [.text "reading waveforms needs --element-size"]
  | some kind, none => .ok (kind, kind.elementSize 0)

/-- The events of a source. -/
def events (r : Request) (fs : FileSystem) (standardInput : Bytes) :
    Source → Except Report (List Event)
  | .standardInput => do
    let (kind, size) ← standardInputLayout r
    (Event.ofUnit standardInput kind size).mapError fun e => [.text e.message]
  | .file path =>
    (Event.ofUnitFile fs path).mapError fun e => .text s!"cannot decode {path}" :: e.report

/-- The tables of some sources behind what has been printed, up to the first that cannot be
read. -/
def print (r : Request) (fs : FileSystem) (standardInput : Bytes) (printed : String) :
    List Source → String × Option Report
  | [] => (printed, none)
  | source :: rest =>
    match events r fs standardInput source with
    | .error report => (printed, some report)
    | .ok events =>
      print r fs standardInput (printed ++ (Table.render true events).2) rest

/-- How the program ended. -/
inductive Outcome where
  | usage (e : UsageError)
  | help
  | version
  /-- What was printed, and what stopped it. -/
  | done (printed : String) (failure : Option Report)
  deriving DecidableEq, Repr

/-- What the program prints. -/
def Outcome.printed : Outcome → String
  | usage _ => ""
  | help => program.help ++ "\n"
  | version => program.version ++ "\n"
  | done printed _ => printed

/-- What went wrong with the sources, if they have been read. -/
def Outcome.failure : Outcome → Option Report
  | done _ failure => failure
  | _ => none

/-- The exit code of the program. -/
def Outcome.exitCode : Outcome → Nat
  | usage _ => 1
  | help => 0
  | version => 0
  | done _ failure => if failure.isSome then 1 else 0

/-- What the program does with a command line, files and standard input. -/
def run (args : List String) (fs : FileSystem) (standardInput : Bytes) : Outcome :=
  match Request.ofArguments args with
  | .error e => .usage e
  | .ok r =>
    if r.help then .help
    else if r.version then .version
    else
      let inputs := if r.inputs.isEmpty then ["-"] else r.inputs
      match sources fs false inputs with
      | .error report => .done "" (some report)
      | .ok sources =>
        let (printed, failure) := print r fs standardInput "" sources
        .done printed failure

end PulseDaq.Cat
