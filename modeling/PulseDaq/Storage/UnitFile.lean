import PulseDaq.Files.System
import PulseDaq.Json.Parser
import PulseDaq.Record.Attributes
import PulseDaq.Record.Unit
import PulseDaq.Report

/-!
# Reading units back

The records of a unit file are of the kind and size that the `digitizer.json` beside it states.

* `Event.ofUnitFile`: the events of a unit file.
-/

namespace PulseDaq

/-- Why a file does not hold the JSON that it has to. -/
inductive JsonFileError where
  | malformed
  | os (e : OsError)
  deriving DecidableEq, Repr

/-- The error as a cause of others. -/
def JsonFileError.cause : JsonFileError → Cause
  | malformed => .json
  | os e => .text e.message

/-- What a file that has been opened holds as JSON. -/
def Node.readJson (node : Node) (read : Json.Value → Option α) : Except JsonFileError α :=
  match node.read with
  | .error e => .error (.os e)
  | .ok bytes =>
    match Json.parseBytes? bytes >>= read with
    | some a => .ok a
    | none => .error .malformed

theorem Node.readJson_file {read : Json.Value → Option α} {bytes : Bytes} {v : Json.Value} {a : α}
    (hparse : Json.parseBytes? bytes = some v) (hread : read v = some a) :
    (Node.file bytes).readJson read = .ok a := by
  simp [readJson, Node.read, hparse, hread]

/-- Why a unit file cannot be read. -/
inductive UnitFileError where
  | noParent
  | openAttributes (path : String) (e : OsError)
  | attributes (e : JsonFileError)
  | read (path : String) (e : OsError)
  | unit (e : UnitError)
  deriving DecidableEq, Repr

/-- The error and what is behind it. -/
def UnitFileError.report : UnitFileError → Report
  | noParent => [.text "unit file has no parent directory"]
  | openAttributes path e => [.text s!"cannot open {path}", .text e.message]
  | attributes e => [e.cause]
  | read path e => [.text s!"cannot read {path}", .text e.message]
  | unit e => [.text e.message]

/-- The events of a unit file. -/
def Event.ofUnitFile (fs : FileSystem) (path : String) : Except UnitFileError (List Event) := do
  let some dir := Path.parent? path | throw .noParent
  let attributesPath := Path.join dir "digitizer.json"
  let node ← (fs.find attributesPath).mapError (.openAttributes attributesPath)
  let attributes ← (node.readJson DigitizerAttributes.ofJson?).mapError .attributes
  let bytes ← (fs.read path).mapError (.read path)
  (Event.ofUnit bytes attributes.kind attributes.elementSize).mapError .unit

end PulseDaq
