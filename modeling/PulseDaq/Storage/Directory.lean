import PulseDaq.Files.System
import PulseDaq.Storage.Synchronized
import PulseDaq.Text.Utf8

/-!
# Units as files

```text
<out>/qdcsave-run-<run id>/
    index.json                      written at the end
    <id >> 32>_<id & 0xffffffff>/
        digitizer.json              record kind and layout, once
        <timestamp>.bin             records
        <timestamp>.json            unit attributes
```

No file is ever written over another.

* `DirectoryBackend.digitizerName`: the name of a digitizer's directory.
* `DirectoryBackend.create`: the directory of a run.
-/

namespace PulseDaq

/-- The directory of one run among some files. -/
structure RunDirectory (φ : Type) where
  root : String
  /-- Units written for each digitizer directory, in the order of their names. They are not reduced
  to the 64 bits that a count has on a machine, so this is the count for fewer than `2 ^ 64`
  units. -/
  units : List (String × Nat) := []
  files : φ

/-- The directory of one run in a file system. -/
abbrev DirectoryBackend := RunDirectory FileSystem

/-- A digitizer's identity in two halves. -/
def DirectoryBackend.digitizerName (id : UInt64) : String :=
  s!"{id.toNat / UInt32.size}_{id.toNat % UInt32.size}"

open Json (Value)

variable {φ : Type}

namespace RunDirectory

/-- A digitizer's directory. -/
def digitizerDir (b : RunDirectory φ) (id : UInt64) : String :=
  Path.join b.root (DirectoryBackend.digitizerName id)

/-- The index of a run: the units written for each digitizer. -/
def index (b : RunDirectory φ) : Value :=
  .object [("units", .object (b.units.map fun (name, n) => (name, .nat n)))]

end RunDirectory

namespace DirectoryBackend

/-- The directory of the run `runId` below `out`. -/
def create [Files φ] (out runId : String) : EStateM WriterError φ (RunDirectory φ) := do
  let root := Path.join out ("qdcsave-run-" ++ runId)
  (Files.createDirAll root).adaptExcept fun e => .io root e
  return { root, files := ← get }

/-- A file operation; what it fails with becomes an error of the writer. -/
def onFiles (wrap : OsError → WriterError) (op : EStateM OsError φ α) :
    EStateM WriterError (RunDirectory φ) α := fun b =>
  match op b.files with
  | .ok a files => .ok a { b with files }
  | .error e files => .error (wrap e) { b with files }

/-- A new file with a JSON value. That it cannot be written counts as a failure of the file, also if
it is found while a long text is being formed. -/
def writeJson [Files φ] (path : String) (v : Value) :
    EStateM WriterError (RunDirectory φ) Unit :=
  onFiles (.io path) (Files.createNew path (Utf8.encode v.pretty))

/-- Set the count of a digitizer directory, keeping the names in order. -/
def setCount (name : String) (count : Nat) : List (String × Nat) → List (String × Nat)
  | [] => [(name, count)]
  | (other, n) :: rest =>
    if name = other then (name, count) :: rest
    else if name < other then (name, count) :: (other, n) :: rest
    else (other, n) :: setCount name count rest

def createDigitizer [Files φ] (id : UInt64) (attributes : DigitizerAttributes) :
    EStateM WriterError (RunDirectory φ) Unit := do
  let dir := (← get).digitizerDir id
  onFiles (.io dir) (Files.createDirAll dir)
  writeJson (Path.join dir "digitizer.json") attributes.toJson
  modify fun b => { b with units := setCount (digitizerName id) 0 b.units }

/-- What a failure to create the file of a unit means. -/
def unitError (u : StoredUnit) (path : String) : OsError → WriterError
  | .alreadyExists => .alreadyExists u.id u.timestamp
  | e => .io path e

def writeUnit [Files φ] (u : StoredUnit) : EStateM WriterError (RunDirectory φ) Unit := do
  let dir := (← get).digitizerDir u.id
  let path := Path.join dir s!"{u.timestamp.toNat}.bin"
  onFiles (unitError u path) (Files.createNew path u.bytes)
  let attributes : UnitAttributes :=
    { timestamp := u.timestamp, elements := u.elements, elementSize := u.elementSize }
  writeJson (Path.join dir s!"{u.timestamp.toNat}.json") attributes.toJson
  let name := digitizerName u.id
  modify fun b => { b with units := setCount name ((b.units.lookup name).getD 0 + 1) b.units }

def close [Files φ] : EStateM WriterError (RunDirectory φ) Unit := do
  let b ← get
  writeJson (Path.join b.root "index.json") b.index

instance [Files φ] : Backend (RunDirectory φ) where
  createDigitizer := createDigitizer
  writeUnit := writeUnit
  close := close

end DirectoryBackend

end PulseDaq
