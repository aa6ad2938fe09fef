import PulseDaq.Session.Basic

/-!
# Opening every digitizer of a run

All digitizers are opened before any of them acquires. If one cannot be opened, all that have been
opened are closed again, and so is that one.

* `Opening.openAll`: the sessions of a run, ready to acquire.
-/

namespace PulseDaq

/-- A digitizer could not be opened. -/
structure OpenFailure (β : Type) where
  /-- Its place among the digitizers. -/
  place : Nat
  error : SessionError
  /-- The sessions opened up to it, and its own, as they are after closing. -/
  sessions : List (Session β)

/-- The error and what is behind it. -/
def OpenFailure.report (f : OpenFailure β) : Report :=
  .text s!"cannot open digitizer {f.place}" :: f.error.report

namespace Opening

variable {β ω : Type} [Board β] [DataWriter ω]

/-- Configure, initialise and prepare one session. -/
def openOne (settings : List Setting) : EStateM SessionError (Session β × ω) Unit := do
  Session.alone (Session.configure settings)
  Session.initialise
  Session.alone Session.prepare

/-- A session after closing, whether or not that failed. -/
def closed (s : Session β) : Session β :=
  match s.close with
  | .ok _ s | .error _ s => s

/-- Open sessions one after another, behind those that have been `opened`. -/
def openAfter (opened : List (Session β)) :
    List (Session β × List Setting) → EStateM (OpenFailure β) ω (List (Session β))
  | [] => pure opened
  | (s, settings) :: rest => fun w =>
    match openOne settings (s, w) with
    | .ok _ (s, w) => openAfter (opened ++ [s]) rest w
    | .error e (s, w) =>
      .error { place := opened.length, error := e, sessions := (opened ++ [s]).map closed } w

/-- Open sessions, each with the values to write to its board. -/
def openAll (sessions : List (Session β × List Setting)) :
    EStateM (OpenFailure β) ω (List (Session β)) :=
  openAfter [] sessions

end Opening

end PulseDaq
