import PulseDaq.Proofs.Files.Creation

/-!
# Files that cannot be made

A file system whose operations fail when they are told to: nothing is made, or a file is made but
only the beginning of its bytes gets into it.

* `FaultySystem`: a file system with the faults that are still to come.
* `FaultySystem.createNew_triple`, `createDirAll_triple`: what is left behind, with and without a
  fault.
-/

namespace PulseDaq

/-- What goes wrong with an operation. -/
inductive Fault where
  /-- Nothing is made. -/
  | refused (e : OsError)
  /-- A file is made, and its first bytes are written. Of some directories the innermost ones are
  not made. -/
  | cut (n : Nat) (text : String)
  deriving DecidableEq, Repr

/-- A file system with what goes wrong with the operations to come, one after the other. -/
structure FaultySystem where
  system : FileSystem
  faults : List (Option Fault) := []
  deriving DecidableEq, Repr

namespace FaultySystem

/-- All of an operation, or what a fault leaves of it. -/
def suffered (whole : EStateM OsError FileSystem Unit)
    (part : Nat → EStateM OsError FileSystem Unit) :
    Option Fault → EStateM OsError FileSystem Unit
  | none => whole
  | some (.refused e) => throw e
  | some (.cut n text) => do
    part n
    throw (.other text)

/-- An operation, with the fault that is next. -/
def attempt (whole : EStateM OsError FileSystem Unit)
    (part : Nat → EStateM OsError FileSystem Unit) : EStateM OsError FaultySystem Unit := fun f =>
  match suffered whole part f.faults.head?.join f.system with
  | .ok a system => .ok a { system, faults := f.faults.tail }
  | .error e system => .error e { system, faults := f.faults.tail }

instance : Files FaultySystem where
  createNew path bytes :=
    attempt (FileSystem.createNew path bytes) fun n => FileSystem.createNew path (bytes.take n)
  createDirAll path := attempt (FileSystem.createDirAll path) fun n =>
    FileSystem.createAlong ((Path.ancestors path).drop n)

end FaultySystem

namespace FaultySystem

open FileSystem

section

variable {P Q : FileSystem → Prop} {E : OsError → FileSystem → Prop}
  {whole : EStateM OsError FileSystem Unit} {part : Nat → EStateM OsError FileSystem Unit}

theorem suffered_triple (hwhole : Triple P whole (fun _ => Q) E) (hrefused : ∀ e fs, P fs → E e fs)
    (hpart : ∀ n text, Triple P (part n) (fun _ => E (.other text)) E) (fault : Option Fault) :
    Triple P (suffered whole part fault) (fun _ => Q) E := by
  cases fault with
  | none => exact hwhole
  | some fault =>
    cases fault with
    | refused e => exact .throw e (hrefused e)
    | cut n text => exact .bind (hpart n text) fun _ => .throw _ fun _ h => h

/-- Every operation does all, nothing or a part of what it is to do. -/
theorem attempt_triple (hwhole : Triple P whole (fun _ => Q) E) (hrefused : ∀ e fs, P fs → E e fs)
    (hpart : ∀ n text, Triple P (part n) (fun _ => E (.other text)) E) :
    Triple (fun f => P f.system) (attempt whole part) (fun _ f => Q f.system)
      fun e f => E e f.system := by
  intro f hf
  have hrun := suffered_triple hwhole hrefused hpart f.faults.head?.join f.system hf
  unfold attempt
  cases hresult : suffered whole part f.faults.head?.join f.system with
  | ok a system =>
    rw [hresult] at hrun
    exact hrun
  | error e system =>
    rw [hresult] at hrun
    exact hrun

end

/-- A new file is there with all its bytes, with some of them, or not at all. -/
theorem createNew_triple (path : String) (bytes : Bytes) (fs : FileSystem) :
    Triple (fun f : FaultySystem => f.system = fs) (Files.createNew path bytes)
      (fun _ f => fs.Gets path bytes f.system)
      fun e f => f.system = fs ∨
        ∃ n text, e = .other text ∧ fs.Gets path (bytes.take n) f.system := by
  refine attempt_triple (P := (· = fs)) (Q := fs.Gets path bytes)
    (E := fun e fs' => fs' = fs ∨ ∃ n text, e = .other text ∧ fs.Gets path (bytes.take n) fs')
    ((createNew_gets path bytes fs).imp_error fun _ _ h => .inl h) (fun _ _ h => .inl h) ?_
  intro n text
  refine (createNew_gets path (bytes.take n) fs).imp ?_ ?_
  · exact fun _ _ h => .inr ⟨n, text, rfl, h⟩
  · exact fun _ _ h => .inl h

/-- What is true with more directories stays true when directories are made, as far as they are. -/
theorem createDirAll_preserves {P : FileSystem → Prop}
    (hadded : ∀ fs l, P fs → fs.node? l = none → P (fs.added l .directory)) (path : String) :
    Preserves (fun f : FaultySystem => P f.system) (Files.createDirAll path) :=
  attempt_triple (createAlong_preserves hadded _) (fun _ _ h => h)
    fun _ _ => createAlong_preserves hadded _

end FaultySystem

end PulseDaq
