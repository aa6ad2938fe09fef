import PulseDaq.Run.Declaration
import PulseDaq.Storage.Directory

/-!
# The writer of a run

Where the records of a run go, as its declaration says.
-/

namespace PulseDaq

/-- The writer of a run. -/
inductive RunWriter where
  | directory (w : Synchronized DirectoryBackend)
  /-- Nothing is stored; the files stay as they are. -/
  | null (totals : Totals) (files : FileSystem)

namespace RunWriter

/-- Open the writer that a declaration asks for. -/
def ofRun (r : Run) (runId : String) : EStateM WriterError FileSystem RunWriter :=
  match r.writer with
  | .directory => do
    let backend ← DirectoryBackend.create (r.output.getD ".") runId
    return .directory { backend }
  | .null => return .null {} (← get)

/-- The files as the writer leaves them for now. -/
def files : RunWriter → FileSystem
  | directory w => w.backend.files
  | null _ files => files

/-- The writer over other files. -/
def withFiles (files : FileSystem) : RunWriter → RunWriter
  | directory w => .directory { w with backend := { w.backend with files } }
  | null totals _ => .null totals files

/-- Use the writer that there is. -/
def through (stored : EStateM WriterError (Synchronized DirectoryBackend) α)
    (counted : EStateM WriterError Totals α) : EStateM WriterError RunWriter α
  | .directory w =>
    match stored w with
    | .ok a w => .ok a (.directory w)
    | .error e w => .error e (.directory w)
  | .null totals files =>
    match counted totals with
    | .ok a totals => .ok a (.null totals files)
    | .error e totals => .error e (.null totals files)

instance : DataWriter RunWriter where
  addDigitizer id := through (DataWriter.addDigitizer id) (DataWriter.addDigitizer id)
  writeBuffer kind buffer id timestamp :=
    through (DataWriter.writeBuffer kind buffer id timestamp)
      (DataWriter.writeBuffer kind buffer id timestamp)
  writeSet events id timestamp :=
    through (DataWriter.writeSet events id timestamp) (DataWriter.writeSet events id timestamp)
  writeEvents events id timestamp :=
    through (DataWriter.writeEvents events id timestamp)
      (DataWriter.writeEvents events id timestamp)
  close := through DataWriter.close DataWriter.close

/-- The files after the writer is gone, which is closed if it has not been. -/
def dropped : RunWriter → FileSystem
  | directory w => w.dropped.files
  | null _ files => files

end RunWriter

end PulseDaq
