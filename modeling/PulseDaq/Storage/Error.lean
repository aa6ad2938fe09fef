import PulseDaq.Files.Error
import PulseDaq.Record.Kind
import PulseDaq.Report

/-!
# Storage errors
-/

namespace PulseDaq

/-- Why a writer refuses or fails. -/
inductive WriterError where
  | io (path : String) (cause : OsError)
  /-- The unit has been stored before. -/
  | alreadyExists (id timestamp : UInt64)
  /-- A digitizer's units are all of one kind and record size. -/
  | layout (id : UInt64) (expected : RecordKind) (expectedSize : Nat) (found : RecordKind)
    (foundSize : Nat)
  /-- The records of one unit are not alike. -/
  | mixed
  | closed
  deriving DecidableEq, Repr

namespace WriterError

/-- The wording of a storage error. -/
def message : WriterError → String
  | io path cause => s!"cannot write {path}: {cause.message}"
  | alreadyExists id timestamp =>
    s!"unit {timestamp.toNat} of digitizer {id.toNat} already exists"
  | layout id expected expectedSize found foundSize =>
    s!"digitizer {id.toNat} stores {expected.name} records of {expectedSize} bytes, "
      ++ s!"not {found.name} records of {foundSize} bytes"
  | mixed => "records to be written together must share one layout"
  | closed => "writer is closed"

/-- The error and what is behind it. -/
def report (e : WriterError) : Report :=
  .text e.message :: match e with
    | io _ cause => [.text cause.message]
    | _ => []

end WriterError

end PulseDaq
