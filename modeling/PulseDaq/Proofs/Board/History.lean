import PulseDaq.Proofs.Board.Drawing
import PulseDaq.Proofs.Board.Logged
import PulseDaq.Proofs.Lists

/-!
# Histories of simulated boards

Any calls of a simulated board, one after the other, with their log.

* `LoggedBoard.run`: the board and the log that calls leave behind.
* `SimulatedBoard.Took`: what one call does to the settings and the values of a board, to whether it
  acquires and to how often it has been read. Only a set that is answered changes a value.
* `SimulatedBoard.Recorded`: what the log says of all this. Every call keeps it so
  (`Recorded.call`), hence every history (`recorded_run`).
-/

namespace PulseDaq

/-! ## Calls -/

/-- The state that an action leaves behind, whether it answers or fails. -/
def leftBy {ε σ α : Type} (c : EStateM ε σ α) (s : σ) : σ :=
  match c s with
  | .ok _ s => s
  | .error _ s => s

/-- The board that a call leaves behind. A read fills `buffer`. -/
def BoardCall.after {β : Type} [Board β] (b : β) (buffer : ReadoutBuffer) : BoardCall → β
  | get f index => leftBy (Board.get f index) b
  | set f index value => leftBy (Board.set f index value) b
  | allocate => leftBy Board.allocate b
  | read => (leftBy Board.read (b, buffer)).1
  | free capacity => leftBy (Board.free { capacity }) b
  | start => leftBy Board.start b
  | stop => leftBy Board.stop b
  | close => leftBy Board.close b

/-- The board and the log that calls leave behind, each made with a readout buffer at hand. -/
def LoggedBoard.run {β : Type} [Board β] (b : β) (calls : List (BoardCall × ReadoutBuffer)) :
    LoggedBoard β :=
  calls.foldl (fun l call => call.1.after l call.2) { board := b }

namespace BoardLog

/-- The value of the latest set for a key that was answered. -/
def lastSet (key : RegisterKey) : BoardLog → Option UInt32
  | [] => none
  | (.set f index value, .ok _) :: earlier =>
    if key = (f, index) then some value else lastSet key earlier
  | _ :: earlier => lastSet key earlier

/-- Whether the board acquires: the latest start or stop that was answered has been a start. -/
def acquires : BoardLog → Bool
  | [] => false
  | (.start, .ok _) :: _ => true
  | (.stop, .ok _) :: _ => false
  | _ :: earlier => acquires earlier

/-- The board has got to know of a read; it has not if the link was down. -/
def reached : BoardCall × Except BoardError Unit → Bool
  | (.read, .ok _) => true
  | (.read, .error e) => !e.isTransient
  | _ => false

/-- How often the board has been read, modulo `2 ^ 32`. -/
def readNumber (log : BoardLog) : UInt32 :=
  UInt32.ofNat (log.countP reached)

end BoardLog

theorem Registers.lookup_set (r : Registers) (key other : RegisterKey) (value : UInt32) :
    (r.set key value).lookup other = if other = key then some value else r.lookup other :=
  lookup_replace other key value r

namespace SimulatedBoard

/-! ## One call -/

/-- The values after a call. -/
def valuesAfter (values : Registers) : BoardCall × Except BoardError Unit → Registers
  | (.set f index value, .ok _) => values.set (f, index) value
  | _ => values

/-- Whether the board acquires after a call. -/
def acquiresAfter (acquires : Bool) : BoardCall × Except BoardError Unit → Bool
  | (.start, .ok _) => true
  | (.stop, .ok _) => false
  | _ => acquires

/-- What a call and its answer say of the board before and behind it. -/
structure Took (e : BoardCall × Except BoardError Unit) (b b' : SimulatedBoard) : Prop where
  simulation : b'.simulation = b.simulation
  registers : b'.registers = valuesAfter b.registers e
  acquiring : b'.acquiring = acquiresAfter b.acquiring e
  reads : b'.monitor.reads =
    if BoardLog.reached e then b.monitor.reads + 1 else b.monitor.reads

/-- While the link is down, it counts its failures; nothing gets through. -/
theorem link_triple (b : SimulatedBoard) :
    Triple (· = b) link (fun _ b' => b.failuresLeft = 0 ∧ b' = b) fun e b' =>
      b.failuresLeft ≠ 0 ∧ e = .communication "simulated link timeout" ∧ b' = { b with
        failuresLeft := b.failuresLeft - 1
        monitor := { b.monitor with transientFailures := b.monitor.transientFailures + 1 } } := by
  refine .bind_get fun b₀ h₀ => ?_
  subst h₀
  refine .ite (fun hdown => ?_) fun hup => .pure _ fun _ h => ⟨Decidable.not_not.1 hup, h⟩
  intro _ _
  exact ⟨hdown, rfl, rfl⟩

theorem getValue_took (b : SimulatedBoard) (f : FunctionId) (index : Option UInt32) :
    Triple (· = b) (getValue f index) (fun _ b' => Took (.get f index, .ok ()) b b')
      fun e b' => Took (.get f index, .error e) b b' := by
  refine .bind (.ofExcept _ ?_) fun _ => ?_
  · rintro e _ - rfl
    exact ⟨rfl, rfl, rfl, rfl⟩
  refine .pre (P := (· = b)) (.bind ((link_triple b).imp_error ?_) fun _ => ?_) fun _ h => h.2
  · rintro e _ ⟨-, -, rfl⟩
    exact ⟨rfl, rfl, rfl, rfl⟩
  refine .bind_get fun b₁ h₁ => ?_
  obtain ⟨-, rfl⟩ := h₁
  refine .ite (fun _ => ?_) fun _ => .pure _ ?_
  all_goals
    rintro _ rfl
    exact ⟨rfl, rfl, rfl, rfl⟩

theorem setValue_took (b : SimulatedBoard) (f : FunctionId) (index : Option UInt32)
    (value : UInt32) :
    Triple (· = b) (setValue f index value)
      (fun _ b' => Took (.set f index value, .ok ()) b b')
      fun e b' => Took (.set f index value, .error e) b b' := by
  refine .bind (.ofExcept _ ?_) fun _ => ?_
  · rintro e _ - rfl
    exact ⟨rfl, rfl, rfl, rfl⟩
  refine .pre (P := (· = b)) (.bind ((link_triple b).imp_error ?_) fun _ => ?_) fun _ h => h.2
  · rintro e _ ⟨-, -, rfl⟩
    exact ⟨rfl, rfl, rfl, rfl⟩
  refine .modify ?_
  rintro _ ⟨-, rfl⟩
  exact ⟨rfl, rfl, rfl, rfl⟩

/-- What a read comes to. If the link is up, the board is told of the read; a readout that does not
fit its buffer leaves that empty. -/
inductive ReadOutcome (b : SimulatedBoard) (buffer : ReadoutBuffer) :
    EStateM.Result BoardError (SimulatedBoard × ReadoutBuffer) Unit → Prop
  | lost {b' : SimulatedBoard} (down : b.failuresLeft ≠ 0)
    (took : Took (.read, .error (.communication "simulated link timeout")) b b') :
    ReadOutcome b buffer (.error (.communication "simulated link timeout") (b', buffer))
  | filled {told : SimulatedBoard} (up : b.failuresLeft = 0)
    (took : Took (.read, .ok ()) b told) (time : told.time = b.time)
    (fits : (readout told.monitor.reads told).1.length ≤ buffer.capacity) :
    ReadOutcome b buffer (.ok () ((readout told.monitor.reads told).2,
      { buffer with bytes := (readout told.monitor.reads told).1 }))
  | refused {told : SimulatedBoard} (up : b.failuresLeft = 0)
    (took : Took (.read, .ok ()) b told)
    (full : buffer.capacity < (readout told.monitor.reads told).1.length) :
    ReadOutcome b buffer (.error
      (.readoutOverflow buffer.capacity (readout told.monitor.reads told).1.length)
      ((readout told.monitor.reads told).2, buffer.clear))

theorem readInto_outcome (b : SimulatedBoard) (buffer : ReadoutBuffer) :
    ReadOutcome b buffer (readInto (b, buffer)) := by
  have hlink := link_triple b b rfl
  unfold readInto
  cases hrun : link b with
  | error e b₁ =>
    rw [hrun] at hlink
    obtain ⟨hdown, rfl, rfl⟩ := hlink
    simp only [hrun]
    exact .lost hdown ⟨rfl, rfl, rfl, rfl⟩
  | ok _ b₁ =>
    rw [hrun] at hlink
    obtain ⟨hup, rfl⟩ := hlink
    simp only [hrun]
    generalize htold : { b₁ with
      monitor := { b₁.monitor with reads := b₁.monitor.reads + 1 }
      elapsed := b₁.elapsed + b₁.simulation.readDelay } = told
    have hreads : b₁.monitor.reads + 1 = told.monitor.reads := htold ▸ rfl
    have htook : Took (.read, .ok ()) b₁ told := htold ▸ ⟨rfl, rfl, rfl, rfl⟩
    rw [hreads]
    have hrefused := @ReadOutcome.refused b₁ buffer told hup htook
    have hfilled := @ReadOutcome.filled b₁ buffer told hup htook (htold ▸ rfl)
    generalize readout told.monitor.reads told = made at hrefused hfilled ⊢
    obtain ⟨bytes, b'⟩ := made
    by_cases hfull : buffer.capacity < bytes.length
    · have hfill : buffer.fill bytes = _ := if_pos hfull
      simp only [hfill]
      exact hrefused hfull
    · have hfill : buffer.fill bytes = _ := if_neg hfull
      simp only [hfill]
      exact hfilled (Nat.le_of_not_lt hfull)

/-- Drawing is no call. -/
theorem Took.beside {e : BoardCall × Except BoardError Unit} {b b' b'' : SimulatedBoard}
    (h : Took e b b') (hbeside : Beside b' b'') : Took e b b'' := by
  obtain ⟨_, _, rfl⟩ := hbeside
  exact ⟨h.simulation, h.registers, h.acquiring, h.reads⟩

theorem readInto_took (b : SimulatedBoard) (buffer : ReadoutBuffer) :
    Triple (· = (b, buffer)) readInto (fun _ s => Took (.read, .ok ()) b s.1)
      fun e s => Took (.read, .error e) b s.1 := by
  rintro _ rfl
  have houtcome := readInto_outcome b buffer
  generalize readInto (b, buffer) = r at houtcome ⊢
  cases houtcome with
  | lost _ took => exact took
  | filled _ took => exact took.beside (readout_beside _ _)
  | refused _ took =>
    refine Took.beside ?_ (readout_beside _ _)
    exact ⟨took.simulation, took.registers, took.acquiring, took.reads⟩

/-! ## Histories -/

/-- The log of a board says what has become of the board that it was at first. -/
structure Recorded (b₀ : SimulatedBoard) (l : LoggedBoard SimulatedBoard) : Prop where
  simulation : l.board.simulation = b₀.simulation
  registers : ∀ key,
    l.board.registers.lookup key = (l.log.lastSet key).or (b₀.registers.lookup key)
  acquiring : b₀.acquiring = false → l.board.acquiring = l.log.acquires
  reads : l.board.monitor.reads = b₀.monitor.reads + l.log.readNumber

namespace Recorded

variable {b₀ : SimulatedBoard} {l : LoggedBoard SimulatedBoard}

/-- A call that took place is recorded. -/
theorem note (h : Recorded b₀ l) {e : BoardCall × Except BoardError Unit} {b' : SimulatedBoard}
    (htook : Took e l.board b') : Recorded b₀ { board := b', log := e :: l.log } where
  simulation := htook.simulation.trans h.simulation
  registers key := by
    rw [htook.registers]
    obtain ⟨c, r⟩ := e
    cases r with
    | error e => cases c <;> exact h.registers key
    | ok a =>
      cases c with
      | set f index value =>
        rw [valuesAfter, Registers.lookup_set, BoardLog.lastSet]
        split
        · rfl
        · exact h.registers key
      | _ => exact h.registers key
  acquiring hidle := by
    rw [htook.acquiring]
    obtain ⟨c, r⟩ := e
    cases r with
    | error e => cases c <;> exact h.acquiring hidle
    | ok a => cases c <;> first | rfl | exact h.acquiring hidle
  reads := by
    rw [htook.reads, h.reads, BoardLog.readNumber, BoardLog.readNumber, List.countP_cons]
    split
    · rw [UInt32.ofNat_add, ← UInt32.add_assoc]
      rfl
    · rfl

/-- A logged call that takes place is recorded, whatever it answers. -/
theorem note_triple {α : Type} (h : Recorded b₀ l) {c : BoardCall}
    (op : EStateM BoardError SimulatedBoard α)
    (htook : Triple (· = l.board) op (fun _ b' => Took (c, .ok ()) l.board b')
      fun e b' => Took (c, .error e) l.board b') :
    Recorded b₀ (leftBy (LoggedBoard.note c op) l) := by
  have hop := htook l.board rfl
  unfold leftBy LoggedBoard.note
  cases hrun : op l.board with
  | ok a b' =>
    rw [hrun] at hop
    exact h.note hop
  | error e b' =>
    rw [hrun] at hop
    exact h.note hop

theorem noteRead (h : Recorded b₀ l) (buffer : ReadoutBuffer) :
    Recorded b₀ (leftBy (Board.read (β := LoggedBoard SimulatedBoard)) (l, buffer)).1 := by
  have hread := readInto_took l.board buffer (l.board, buffer) rfl
  show Recorded b₀ (leftBy (LoggedBoard.noteRead readInto) (l, buffer)).1
  simp only [leftBy, LoggedBoard.noteRead]
  cases hrun : readInto (l.board, buffer) with
  | ok _ s =>
    rw [hrun] at hread
    exact h.note hread
  | error e s =>
    rw [hrun] at hread
    exact h.note hread

/-- Every call is recorded. -/
theorem call (h : Recorded b₀ l) (c : BoardCall) (buffer : ReadoutBuffer) :
    Recorded b₀ (c.after l buffer) := by
  cases c with
  | get f index => exact h.note_triple (getValue f index) (getValue_took _ f index)
  | set f index value =>
    exact h.note_triple (setValue f index value) (setValue_took _ f index value)
  | read => exact h.noteRead buffer
  | allocate | free | start | stop | close =>
    refine h.note ?_
    exact ⟨rfl, rfl, rfl, rfl⟩

end Recorded

/-- The log of any history says what has become of the board. -/
theorem recorded_run (b : SimulatedBoard) (calls : List (BoardCall × ReadoutBuffer)) :
    Recorded b (LoggedBoard.run b calls) := by
  have hstart : Recorded b { board := b } :=
    ⟨rfl, fun _ => rfl, fun h => h, (UInt32.add_zero _).symm⟩
  unfold LoggedBoard.run
  generalize ({ board := b } : LoggedBoard SimulatedBoard) = l at hstart ⊢
  induction calls generalizing l with
  | nil => exact hstart
  | cons call calls ih => exact ih _ (hstart.call call.1 call.2)

end SimulatedBoard

end PulseDaq
