import PulseDaq.Board.Scripted
import PulseDaq.Proofs.Simulation
import PulseDaq.Proofs.Triple

/-!
# Boards with a log

`LoggedBoard β` is the board `β` with a log of its calls and of whether they answered. The log is
only kept: every call answers what it answers without the log, and leaves the same board behind
(`LoggedBoard.note_simulates`, `LoggedBoard.read_simulates`).

* `LoggedBoard.note_triple`, `LoggedBoard.read_triple`: what calls do to the log.
* `BoardLog.Lawful`: every call came when it was in order, given the calls before it.
* `BoardLog.Books`: a lawful log and its balances.
-/

namespace PulseDaq

/-- The calls of a board and what they failed with, the latest first. -/
abbrev BoardLog := List (BoardCall × Except BoardError Unit)

/-- A board that logs its calls. -/
structure LoggedBoard (β : Type) where
  board : β
  log : BoardLog := []

namespace LoggedBoard

variable {α β : Type}

/-- Make a call and log it. -/
def note (c : BoardCall) (op : EStateM BoardError β α) : EStateM BoardError (LoggedBoard β) α :=
  fun l =>
    match op l.board with
    | .ok a board => .ok a { board, log := (c, .ok ()) :: l.log }
    | .error e board => .error e { board, log := (c, .error e) :: l.log }

/-- Read and log it. -/
def noteRead (op : EStateM BoardError (β × ReadoutBuffer) Unit) :
    EStateM BoardError (LoggedBoard β × ReadoutBuffer) Unit := fun (l, buffer) =>
  match op (l.board, buffer) with
  | .ok _ (board, buffer) => .ok () ({ board, log := (.read, .ok ()) :: l.log }, buffer)
  | .error e (board, buffer) => .error e ({ board, log := (.read, .error e) :: l.log }, buffer)

instance [Board β] : Board (LoggedBoard β) where
  serial l := Board.serial l.board
  firmware l := Board.firmware l.board
  get f index := note (.get f index) (Board.get f index)
  set f index value := note (.set f index value) (Board.set f index value)
  allocate := note .allocate Board.allocate
  read := noteRead Board.read
  free buffer := note (.free buffer.capacity) (Board.free buffer)
  start := note .start Board.start
  stop := note .stop Board.stop
  close := note .close Board.close

/-- A logged call is the call. -/
theorem note_simulates (c : BoardCall) (op : EStateM BoardError β α) :
    Simulates (fun (l : LoggedBoard β) b => l.board = b) (note c op) op := by
  rintro l _ rfl
  simp only [note]
  cases op l.board with
  | ok a board => exact .ok a rfl
  | error e board => exact .error e rfl

theorem read_simulates (op : EStateM BoardError (β × ReadoutBuffer) Unit) :
    Simulates (fun (l : LoggedBoard β × ReadoutBuffer) b => (l.1.board, l.2) = b) (noteRead op)
      op := by
  rintro ⟨l, buffer⟩ _ rfl
  simp only [noteRead]
  cases op (l.board, buffer) with
  | ok _ left => exact .ok () rfl
  | error e left => exact .error e rfl

/-- What is known of the log after a logged call. -/
theorem note_triple {X Y Z : BoardLog → Prop} {c : BoardCall} (op : EStateM BoardError β α)
    (hok : ∀ log, X log → Y ((c, .ok ()) :: log))
    (herror : ∀ e log, X log → Z ((c, .error e) :: log)) :
    Triple (fun l : LoggedBoard β => X l.log) (note c op) (fun _ l => Y l.log)
      fun _ l => Z l.log := by
  intro l hl
  simp only [note]
  cases op l.board with
  | ok a board => exact hok l.log hl
  | error e board => exact herror e l.log hl

theorem read_triple {X Y Z : BoardLog → Prop} (op : EStateM BoardError (β × ReadoutBuffer) Unit)
    (hok : ∀ log, X log → Y ((.read, .ok ()) :: log))
    (herror : ∀ e log, X log → Z ((.read, .error e) :: log)) :
    Triple (fun s : LoggedBoard β × ReadoutBuffer => X s.1.log) (noteRead op)
      (fun _ s => Y s.1.log) fun _ s => Z s.1.log := by
  rintro ⟨l, buffer⟩ hl
  simp only [noteRead]
  cases op (l.board, buffer) with
  | ok _ left => exact hok l.log hl
  | error e left => exact herror e l.log hl

end LoggedBoard

/-! ## What a log says -/

namespace BoardLog

/-- The latest call was of the method and has been answered, and `X` is known of those before it. -/
def JustDone (method : BoardMethod) (X : BoardLog → Prop) (log : BoardLog) : Prop :=
  ∃ c earlier, log = (c, .ok ()) :: earlier ∧ c.method = method ∧ X earlier

/-- The latest call was of the method and has failed, and `X` is known of those before it. -/
def JustFailed (method : BoardMethod) (X : BoardLog → Prop) (log : BoardLog) : Prop :=
  ∃ c e earlier, log = (c, .error e) :: earlier ∧ c.method = method ∧ X earlier

/-- A readout buffer was allocated. -/
def allocated : BoardCall × Except BoardError Unit → Bool
  | (.allocate, .ok _) => true
  | _ => false

/-- A readout buffer was handed back; it is gone even if the board has failed to free it. -/
def freed : BoardCall × Except BoardError Unit → Bool
  | (.free _, _) => true
  | _ => false

/-- An acquisition was started. -/
def started : BoardCall × Except BoardError Unit → Bool
  | (.start, .ok _) => true
  | _ => false

/-- An acquisition was stopped. -/
def stopped : BoardCall × Except BoardError Unit → Bool
  | (.stop, .ok _) => true
  | _ => false

/-- The board was to be read. -/
def isRead : BoardCall × Except BoardError Unit → Bool
  | (.read, _) => true
  | _ => false

/-- Readout buffers that were allocated less those that were handed back. -/
def buffers (log : BoardLog) : Int :=
  log.countP allocated - log.countP freed

/-- Starts less stops. -/
def running (log : BoardLog) : Int :=
  log.countP started - log.countP stopped

def reads (log : BoardLog) : Nat :=
  log.countP isRead

/-- A call is in order after these. -/
def Permits (earlier : BoardLog) : BoardMethod → Prop
  | .get | .set => True
  | .allocate => earlier.buffers = 0
  | .free => earlier.buffers = 1
  | .start => earlier.running = 0
  | .read | .stop => earlier.running = 1
  | .close => earlier.buffers = 0 ∧ earlier.running = 0

/-- Every call came when it was in order. -/
def Lawful (log : BoardLog) : Prop :=
  ∀ later c r earlier, log = later ++ (c, r) :: earlier → Permits earlier c.method

/-- A lawful log, its balances, and how often the board was read. -/
structure Books (buffers running : Int) (reads : Nat) (log : BoardLog) : Prop where
  lawful : log.Lawful
  buffers : log.buffers = buffers
  running : log.running = running
  reads : log.reads = reads

theorem books_nil : Books 0 0 0 [] where
  lawful := by
    rintro later c r earlier h
    cases later with
    | nil => cases h
    | cons _ _ => cases h
  buffers := rfl
  running := rfl
  reads := rfl

namespace Books

variable {n m n' m' : Int} {k k' : Nat} {log : BoardLog}

/-- One more call that is in order. -/
theorem cons (h : Books n m k log) {c : BoardCall} {r : Except BoardError Unit}
    (hpermits : Permits log c.method)
    (hn : n + ((allocated (c, r)).toNat - (freed (c, r)).toNat : Int) = n')
    (hm : m + ((started (c, r)).toNat - (stopped (c, r)).toNat : Int) = m')
    (hk : k + (isRead (c, r)).toNat = k') : Books n' m' k' ((c, r) :: log) := by
  obtain ⟨hlawful, rfl, rfl, rfl⟩ := h
  have hcount (p : BoardCall × Except BoardError Unit → Bool) :
      List.countP p ((c, r) :: log) = log.countP p + (p (c, r)).toNat := by
    rw [List.countP_cons]
    cases p (c, r) with
    | false => rfl
    | true => rfl
  refine ⟨?_, ?_, ?_, ?_⟩
  · intro later c' r' earlier h
    cases later with
    | nil =>
      obtain ⟨⟨rfl, rfl⟩, rfl⟩ := h
      exact hpermits
    | cons _ later =>
      obtain ⟨-, rfl⟩ := List.cons.inj h
      exact hlawful later c' r' earlier rfl
  · rw [← hn, BoardLog.buffers, BoardLog.buffers, hcount, hcount]
    omega
  · rw [← hm, BoardLog.running, BoardLog.running, hcount, hcount]
    omega
  · rw [← hk, BoardLog.reads, BoardLog.reads, hcount]

end Books

end BoardLog

namespace LoggedBoard

open BoardLog (Books)

/-- What is known before a call is known of the log behind it. -/
theorem note_just {α β : Type} {X : BoardLog → Prop} (c : BoardCall)
    (op : EStateM BoardError β α) :
    Triple (fun l : LoggedBoard β => X l.log) (note c op) (fun _ l => l.log.JustDone c.method X)
      fun _ l => l.log.JustFailed c.method X :=
  note_triple (X := X) (Y := BoardLog.JustDone c.method X) (Z := BoardLog.JustFailed c.method X) op
    (fun log h => ⟨c, log, rfl, rfl, h⟩) fun e log h => ⟨c, e, log, rfl, rfl, h⟩

variable {β : Type} [Board β] {n m : Int} {k : Nat}

/-! ## What the calls do to the books -/

theorem get_books (f : FunctionId) (index : Option UInt32) :
    Preserves (fun l : LoggedBoard β => Books n m k l.log) (Board.get f index) :=
  note_triple _ (fun _ h => h.cons trivial (Int.add_zero n) (Int.add_zero m) rfl)
    fun _ _ h => h.cons trivial (Int.add_zero n) (Int.add_zero m) rfl

theorem set_books (f : FunctionId) (index : Option UInt32) (value : UInt32) :
    Preserves (fun l : LoggedBoard β => Books n m k l.log) (Board.set f index value) :=
  note_triple _ (fun _ h => h.cons trivial (Int.add_zero n) (Int.add_zero m) rfl)
    fun _ _ h => h.cons trivial (Int.add_zero n) (Int.add_zero m) rfl

theorem allocate_books :
    Triple (fun l : LoggedBoard β => Books 0 m k l.log) Board.allocate
      (fun _ l => Books 1 m k l.log) fun _ l => Books 0 m k l.log :=
  note_triple _ (fun _ h => h.cons h.buffers rfl (Int.add_zero m) rfl)
    fun _ _ h => h.cons h.buffers rfl (Int.add_zero m) rfl

theorem read_books :
    Preserves (fun s : LoggedBoard β × ReadoutBuffer => ∃ k, Books n 1 k s.1.log) Board.read := by
  let X (log : BoardLog) : Prop := ∃ k, Books n 1 k log
  have hmore (r : Except BoardError Unit) (log : BoardLog) : X log → X ((.read, r) :: log) :=
    fun ⟨k, h⟩ => ⟨k + 1, h.cons h.running (Int.add_zero n) rfl rfl⟩
  exact read_triple (X := X) (Y := X) (Z := X) Board.read (hmore _) fun _ => hmore _

theorem free_books (buffer : ReadoutBuffer) :
    Triple (fun l : LoggedBoard β => Books 1 m k l.log) (Board.free buffer)
      (fun _ l => Books 0 m k l.log) fun _ l => Books 0 m k l.log :=
  note_triple _ (fun _ h => h.cons h.buffers rfl (Int.add_zero m) rfl)
    fun _ _ h => h.cons h.buffers rfl (Int.add_zero m) rfl

theorem start_books :
    Triple (fun l : LoggedBoard β => Books n 0 k l.log) Board.start
      (fun _ l => Books n 1 k l.log) fun _ l => Books n 0 k l.log :=
  note_triple _ (fun _ h => h.cons h.running (Int.add_zero n) rfl rfl)
    fun _ _ h => h.cons h.running (Int.add_zero n) rfl rfl

theorem stop_books :
    Triple (fun l : LoggedBoard β => Books n 1 k l.log) Board.stop
      (fun _ l => Books n 0 k l.log) fun _ l => Books n 1 k l.log :=
  note_triple _ (fun _ h => h.cons h.running (Int.add_zero n) rfl rfl)
    fun _ _ h => h.cons h.running (Int.add_zero n) rfl rfl

theorem close_books :
    Preserves (fun l : LoggedBoard β => Books 0 0 k l.log) Board.close :=
  note_triple _ (fun _ h => h.cons ⟨h.buffers, h.running⟩ rfl rfl rfl)
    fun _ _ h => h.cons ⟨h.buffers, h.running⟩ rfl rfl rfl

end LoggedBoard

end PulseDaq
