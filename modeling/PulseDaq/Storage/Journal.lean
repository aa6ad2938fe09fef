import PulseDaq.Storage.Synchronized

/-!
# Journals

Storage that keeps track of what it is asked for.

* `Journal`: a backend that stores nothing but the list of its calls, and fails where it is told to.
* `Registrar`: a writer that keeps a list of the digitizers announced to it, or refuses them all.
-/

namespace PulseDaq

/-- A call of a backend. -/
inductive BackendCall where
  | createDigitizer (id : UInt64) (attributes : DigitizerAttributes)
  | writeUnit (u : StoredUnit)
  | close
  deriving DecidableEq, Repr

/-- A backend that notes its calls. -/
structure Journal where
  /-- The calls so far, the latest first, and whether they failed. -/
  entries : List (BackendCall × Bool) := []
  /-- The numbers of the calls that fail, counted from zero. -/
  failing : List Nat := []
  deriving DecidableEq, Repr, Inhabited

namespace Journal

/-- Note a call; it fails if its number is among the failing ones. -/
def note (call : BackendCall) : EStateM WriterError Journal Unit := do
  let j ← get
  let n := j.entries.length
  let failed := j.failing.contains n
  set { j with entries := (call, failed) :: j.entries }
  if failed then
    throw (.io s!"call-{n}" (.other "refused"))

instance : Backend Journal where
  createDigitizer id attributes := note (.createDigitizer id attributes)
  writeUnit u := note (.writeUnit u)
  close := note .close

end Journal

/-- A writer in front of another one that notes the digitizers announced to it. -/
structure Registrar (ω : Type) where
  writer : ω
  announced : List UInt64 := []
  /-- Answer every announcement that the writer is closed. -/
  refuses : Bool := false
  deriving DecidableEq, Repr

namespace Registrar

variable {ω : Type} [DataWriter ω]

/-- A call of the writer behind this one. -/
def onWriter (call : EStateM WriterError ω α) : EStateM WriterError (Registrar ω) α := fun r =>
  match call r.writer with
  | .ok a writer => .ok a { r with writer }
  | .error e writer => .error e { r with writer }

/-- Note a digitizer and announce it to the writer behind this one. -/
def announce (id : UInt64) : EStateM WriterError (Registrar ω) Unit := do
  modify fun r => { r with announced := r.announced ++ [id] }
  if (← get).refuses then
    throw .closed
  onWriter (DataWriter.addDigitizer id)

instance : DataWriter (Registrar ω) where
  addDigitizer := announce
  writeBuffer kind buffer id timestamp :=
    onWriter (DataWriter.writeBuffer kind buffer id timestamp)
  writeSet events id timestamp := onWriter (DataWriter.writeSet events id timestamp)
  writeEvents events id timestamp := onWriter (DataWriter.writeEvents events id timestamp)
  close := onWriter DataWriter.close

end Registrar

end PulseDaq
