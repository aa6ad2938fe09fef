import PulseDaq.Storage.Writer

/-!
# One writer for every digitizer

A writer that passes every call on to one backend, one at a time. It makes room for a digitizer
when its first unit comes, and from then on accepts only units of that kind and record size.

* `Synchronized.write`: one unit.
* `Synchronized.digitizers`: the digitizers there is room for.
-/

namespace PulseDaq

/-- A writer over the backend `backend`. -/
structure Synchronized (γ : Type) where
  backend : γ
  /-- The digitizers there is room for, with their attributes. -/
  known : List (UInt64 × DigitizerAttributes) := []
  closed : Bool := false

namespace Synchronized

variable {γ : Type} [Backend γ]

/-- A call of the backend. -/
def onBackend (call : EStateM WriterError γ α) : EStateM WriterError (Synchronized γ) α := fun s =>
  match call s.backend with
  | .ok a backend => .ok a { s with backend }
  | .error e backend => .error e { s with backend }

/-- Make sure that a unit fits its digitizer, making room for it at its first unit. -/
def ensureRoom (u : StoredUnit) : EStateM WriterError (Synchronized γ) Unit := do
  match (← get).known.lookup u.id with
  | some a =>
    if a.kind ≠ u.kind ∨ a.elementSize ≠ u.elementSize then
      throw (.layout u.id a.kind a.elementSize u.kind u.elementSize)
  | none =>
    let a := DigitizerAttributes.of u.kind u.elementSize
    onBackend (Backend.createDigitizer u.id a)
    modify fun s => { s with known := (u.id, a) :: s.known }

/-- Store a unit. An empty one is stored nowhere. -/
def write (u : StoredUnit) : EStateM WriterError (Synchronized γ) Unit := do
  if u.elements = 0 then
    return
  if (← get).closed then
    throw .closed
  ensureRoom u
  onBackend (Backend.writeUnit u)

/-- Store events as one unit. -/
def writeEvents (events : List Event) (id timestamp : UInt64) :
    EStateM WriterError (Synchronized γ) Unit := do
  match ← ofExcept (StoredUnit.ofEvents events id timestamp) with
  | some u => write u
  | none => return

/-- Close the backend, unless that has been tried before. -/
def close : EStateM WriterError (Synchronized γ) Unit := do
  let s ← get
  unless s.closed do
    set { s with closed := true }
    onBackend Backend.close

instance : DataWriter (Synchronized γ) where
  addDigitizer _ := pure ()
  writeBuffer kind buffer id timestamp := write (.ofBuffer kind buffer id timestamp)
  writeSet events id timestamp := writeEvents events.toList id timestamp
  writeEvents := writeEvents
  close := close

/-- The backend as the writer leaves it, which closes it if nobody has. -/
def dropped (s : Synchronized γ) : γ :=
  match close s with
  | .ok _ s | .error _ s => s.backend

/-- The digitizers there is room for, in ascending order. -/
def digitizers (s : Synchronized γ) : List UInt64 :=
  (s.known.map (·.1)).mergeSort fun a b => a ≤ b

end Synchronized

end PulseDaq
