import PulseDaq.Proofs.Session.Lasting

/-!
# Totals of a session

The totals of a session are those of the cycles that have answered, whatever else has been done
with it: opened, stopped, closed and opened again, with whatever failures of board and writer.

* `AnsweredCycle`: a cycle that has answered, with the readout that it has read.
* `Stats.Grown`: totals that have grown by some cycles. `Session.acquire_counts` says what one cycle
  adds, and `SessionCall.perform_timeless` that no other operation touches them.
* `Stats.AddUp`, `SessionRun.stats_addUp`: the main result.
-/

namespace PulseDaq

/-- A cycle that has answered, with the bytes of the readout that it has read. -/
structure AnsweredCycle where
  outcome : Cycle
  readout : Bytes

namespace AnsweredCycle

def isIdle (c : AnsweredCycle) : Bool :=
  match c.outcome with
  | .idle => true
  | _ => false

def isLost (c : AnsweredCycle) : Bool :=
  match c.outcome with
  | .lost _ => true
  | _ => false

def isWritten (c : AnsweredCycle) : Bool :=
  match c.outcome with
  | .written _ _ => true
  | _ => false

def isWriteFailed (c : AnsweredCycle) : Bool :=
  match c.outcome with
  | .writeFailed _ => true
  | _ => false

/-- What the outcome says of the readout. -/
structure Sound (c : AnsweredCycle) : Prop where
  idle : c.isIdle = true ↔ c.readout = []
  decoded : c.isWritten = true ∨ c.isWriteFailed = true → ∀ e, .error e ∉ decode c.readout
  written : ∀ bytes events, c.outcome = .written bytes events →
    bytes = c.readout.length ∧ events = (decode c.readout).length

/-- The sum of a number over some of the cycles. -/
def sumOf (which : AnsweredCycle → Bool) (f : AnsweredCycle → Nat) (cycles : List AnsweredCycle) :
    Nat :=
  (cycles.filter which).foldr (fun c n => f c + n) 0

theorem sumOf_append (which : AnsweredCycle → Bool) (f : AnsweredCycle → Nat)
    (cycles more : List AnsweredCycle) :
    sumOf which f (cycles ++ more) = sumOf which f cycles + sumOf which f more := by
  unfold sumOf
  rw [List.filter_append, List.foldr_append]
  induction cycles.filter which with
  | nil => simp
  | cons c l ih => simp only [List.foldr_cons, ih, Nat.add_assoc]

/-- The bytes that have been read. -/
def bytesOf (cycles : List AnsweredCycle) : Nat :=
  sumOf (fun c => !c.isIdle) (·.readout.length) cycles

/-- The events that have been decoded and handed to the writer. -/
def eventsOf (cycles : List AnsweredCycle) : Nat :=
  sumOf (fun c => c.isWritten || c.isWriteFailed) (fun c => (decode c.readout).length) cycles

/-- Every cycle has exactly one of the four outcomes. -/
theorem countP_outcomes (cycles : List AnsweredCycle) :
    cycles.length = cycles.countP isIdle + cycles.countP isLost + cycles.countP isWriteFailed +
      cycles.countP isWritten := by
  induction cycles with
  | nil => rfl
  | cons c cycles ih =>
    obtain ⟨outcome, readout⟩ := c
    cases outcome
    all_goals
      simp only [List.length_cons, List.countP_cons, isIdle, isLost, isWritten, isWriteFailed,
        Bool.false_eq_true, if_true, if_false]
      omega

end AnsweredCycle

/-- Totals that have grown by some cycles, modulo 2^64. -/
structure Stats.Grown (t t' : Stats) (cycles : List AnsweredCycle) : Prop where
  count : t'.cycles = t.cycles + UInt64.ofNat cycles.length
  idle : t'.idleCycles = t.idleCycles + UInt64.ofNat (cycles.countP (·.isIdle))
  lost : t'.lostCycles = t.lostCycles + UInt64.ofNat (cycles.countP (·.isLost))
  failed : t'.failedWrites = t.failedWrites + UInt64.ofNat (cycles.countP (·.isWriteFailed))
  bytes : t'.bytesRead = t.bytesRead + UInt64.ofNat (AnsweredCycle.bytesOf cycles)
  events : t'.eventsFound = t.eventsFound + UInt64.ofNat (AnsweredCycle.eventsOf cycles)

namespace Stats.Grown

variable {t t₁ t₂ : Stats} {cycles more : List AnsweredCycle}

theorem refl (t : Stats) : Grown t t [] :=
  ⟨by simp, by simp, by simp, by simp, by simp [AnsweredCycle.bytesOf, AnsweredCycle.sumOf],
    by simp [AnsweredCycle.eventsOf, AnsweredCycle.sumOf]⟩

theorem trans (h : Grown t t₁ cycles) (h' : Grown t₁ t₂ more) : Grown t t₂ (cycles ++ more) where
  count := by rw [h'.count, h.count, List.length_append, UInt64.ofNat_add, UInt64.add_assoc]
  idle := by rw [h'.idle, h.idle, List.countP_append, UInt64.ofNat_add, UInt64.add_assoc]
  lost := by rw [h'.lost, h.lost, List.countP_append, UInt64.ofNat_add, UInt64.add_assoc]
  failed := by rw [h'.failed, h.failed, List.countP_append, UInt64.ofNat_add, UInt64.add_assoc]
  bytes := by
    rw [h'.bytes, h.bytes, AnsweredCycle.bytesOf, AnsweredCycle.bytesOf, AnsweredCycle.bytesOf,
      AnsweredCycle.sumOf_append, UInt64.ofNat_add, UInt64.add_assoc]
  events := by
    rw [h'.events, h.events, AnsweredCycle.eventsOf, AnsweredCycle.eventsOf,
      AnsweredCycle.eventsOf, AnsweredCycle.sumOf_append, UInt64.ofNat_add, UInt64.add_assoc]

end Stats.Grown

/-- The totals with one more cycle. -/
def Stats.after (t : Stats) (c : AnsweredCycle) : Stats :=
  match c.outcome with
  | .idle => t.idle
  | .lost _ => t.lost c.readout.length
  | .written _ _ => t.found c.readout.length (decode c.readout).length
  | .writeFailed _ =>
    let t := t.found c.readout.length (decode c.readout).length
    { t with failedWrites := t.failedWrites + 1 }

theorem Stats.grown_after (t : Stats) (c : AnsweredCycle) : t.Grown (t.after c) [c] := by
  obtain ⟨outcome, readout⟩ := c
  cases outcome
  all_goals
    constructor
    all_goals
      simp [after, Stats.idle, Stats.lost, Stats.found, AnsweredCycle.isIdle, AnsweredCycle.isLost,
        AnsweredCycle.isWriteFailed, AnsweredCycle.isWritten, AnsweredCycle.bytesOf,
        AnsweredCycle.eventsOf, AnsweredCycle.sumOf]

namespace Session

variable {β ω : Type}

/-! ## One cycle -/

/-- Behind its read a cycle counts once, as what it answers. -/
theorem settle_counts [DataWriter ω] (layout : Layout) (records : RecordBuffer) (bytes : Bytes)
    (timestamp : UInt64) (s : Session β) (w : ω) :
    Triple (· = (s, w)) (settle layout records bytes timestamp)
      (fun outcome left => left.1.readout = s.readout ∧ AnsweredCycle.Sound ⟨outcome, bytes⟩ ∧
        left.1.stats = s.stats.after ⟨outcome, bytes⟩)
      fun _ _ => False := by
  rintro _ rfl
  unfold settle
  dsimp only
  by_cases hbytes : bytes = []
  · rw [if_pos hbytes]
    exact ⟨rfl, ⟨⟨fun _ => hbytes, fun _ => rfl⟩, (by rintro (h | h) <;> cases h), nofun⟩, rfl⟩
  rw [if_neg hbytes]
  have hread {outcome : Cycle} (h : AnsweredCycle.isIdle ⟨outcome, bytes⟩ = false) :
      AnsweredCycle.isIdle ⟨outcome, bytes⟩ = true ↔ bytes = [] :=
    ⟨fun hidle => absurd hidle (by simp [h]), fun hnil => absurd hnil hbytes⟩
  obtain ⟨raws, filled, hdecode, -, hfill, -⟩ | ⟨e, filled, -, -, hfill, -⟩ :=
    records.fill_cases layout.kind bytes
  · have hlen : (decode bytes).length = raws.length := by rw [hdecode, List.length_map]
    have hok : ∀ e, .error e ∉ decode bytes := by simp [hdecode]
    rw [hfill]
    dsimp only [store]
    cases DataWriter.writeBuffer layout.kind filled s.id timestamp w with
    | ok _ w' =>
      refine ⟨rfl, ⟨hread rfl, fun _ => hok, ?_⟩, ?_⟩
      · rintro _ _ ⟨⟩
        exact ⟨rfl, hlen.symm⟩
      · rw [Stats.after, hlen]
    | error e w' =>
      refine ⟨rfl, ⟨hread rfl, fun _ => hok, nofun⟩, ?_⟩
      rw [Stats.after, hlen]
  · rw [hfill]
    exact ⟨rfl, ⟨hread rfl, (by rintro (h | h) <;> cases h), nofun⟩, rfl⟩

variable [Board β]

/-- Reading changes no total, and leaves what it has read in the session. -/
theorem read_counts (t : Stats) (buffer : ReadoutBuffer) :
    Triple (fun s : Session β => s.stats = t) (retried (readInto buffer))
      (fun readout s => s.readout = some readout ∧ s.stats = t) fun _ s => s.stats = t := by
  have hread : Triple (fun s : Session β => s.stats = t) (readInto buffer)
      (fun readout s => s.readout = some readout ∧ s.stats = t) fun _ s => s.stats = t := by
    intro s hs
    unfold readInto
    dsimp only
    cases Board.read (s.board, s.readout.getD buffer) with
    | ok _ left => exact ⟨rfl, hs⟩
    | error e left => exact hs
  exact (retried_triple (fun d => .modify fun _ h => h) hread fun _ _ h => h).imp_error
    fun _ _ ⟨_, _, h⟩ => h

/-- A cycle that answers counts once, as what it answers; one that fails does not count. -/
theorem acquire_counts [DataWriter ω] (t : Stats) (timestamp : UInt64) :
    Triple (fun s : Session β × ω => s.1.stats = t) (acquire timestamp)
      (fun outcome left => ∃ readout, left.1.readout = some readout ∧
        AnsweredCycle.Sound ⟨outcome, readout.bytes⟩ ∧
        left.1.stats = t.after ⟨outcome, readout.bytes⟩)
      fun _ left => left.1.stats = t := by
  rintro ⟨s, w⟩ rfl
  obtain hrefused | ⟨hstate, layout, readout, records, hlayout, hreadout, hrecords⟩ :=
    acquire_cases s timestamp w
  · rw [hrefused]
  rw [acquire_eq hstate hlayout hreadout hrecords]
  have hread := read_counts s.stats readout s rfl
  cases hrun : retried (readInto readout) s with
  | error e s₁ =>
    rw [hrun] at hread
    exact hread
  | ok buffer s₁ =>
    rw [hrun] at hread
    obtain ⟨hbuffer, hstats⟩ := hread
    have hsettle := settle_counts layout records buffer.bytes timestamp s₁ w (s₁, w) rfl
    dsimp only
    cases hcycle : settle layout records buffer.bytes timestamp (s₁, w) with
    | error e left =>
      rw [hcycle] at hsettle
      exact hsettle.elim
    | ok outcome left =>
      rw [hcycle] at hsettle
      obtain ⟨hsame, hsound, hleft⟩ := hsettle
      exact ⟨buffer, hsame.trans hbuffer, hsound, hstats ▸ hleft⟩

/-! ## Other operations -/

/-- What holds of a session whatever becomes of it but for its name, options and totals. -/
def Timeless (P : Session β → Prop) : Prop :=
  ∀ s board state layout readout records waited,
    P s → P { s with board, state, layout, readout, records, waited }

omit [Board β] in
theorem Timeless.lasting {P : Session β → Prop} (hP : Timeless P) : Lasting (fun _ => True) P where
  blind s board waited h := hP s board s.state s.layout s.readout s.records waited h
  initialised s _ _ h := hP s s.board _ _ s.readout s.records s.waited h
  supplied s _ _ _ h _ _ _ := hP s s.board _ s.layout _ _ s.waited h
  running s _ _ h := hP s s.board _ s.layout s.readout s.records s.waited h
  gaveUp s _ _ h := hP s s.board _ s.layout _ _ s.waited h

end Session

variable {β ω : Type} [Board β] [DataWriter ω]

/-- No operation but a cycle touches the totals, whatever its outcome. -/
theorem SessionCall.perform_timeless {P : Session β → Prop} (hP : Session.Timeless P)
    {c : SessionCall} (hc : ∀ timestamp, c ≠ .acquire timestamp) :
    Preserves (fun s : Session β × ω => P s.1) c.perform :=
  c.perform_lasting hP.lasting (Preserves.anything _) fun timestamp h => absurd h (hc timestamp)

/-! ## Runs -/

namespace SessionRun

/-- The cycle that an operation completes, if it is one and answers. -/
def cycle? (r : SessionRun β ω) : SessionCall → Option AnsweredCycle
  | .acquire timestamp =>
    match Session.acquire timestamp (r.session, r.writer) with
    | .ok outcome left => some ⟨outcome, (left.1.readout.map (·.bytes)).getD []⟩
    | .error _ _ => none
  | _ => none

/-- The cycles that operations complete, one after another. -/
def cycles (r : SessionRun β ω) : List SessionCall → List AnsweredCycle
  | [] => []
  | c :: calls => (r.cycle? c).toList ++ (r.step c).cycles calls

section Acquire

variable {r : SessionRun β ω} {timestamp : UInt64} {left : Session β × ω}

theorem cycle?_of_ok {outcome : Cycle}
    (h : Session.acquire timestamp (r.session, r.writer) = .ok outcome left) :
    r.cycle? (.acquire timestamp) =
      some ⟨outcome, (left.1.readout.map (·.bytes)).getD []⟩ := by
  simp only [cycle?, h]

theorem cycle?_of_error {e : SessionError}
    (h : Session.acquire timestamp (r.session, r.writer) = .error e left) :
    r.cycle? (.acquire timestamp) = none := by
  simp only [cycle?, h]

theorem step_of_ok {outcome : Cycle}
    (h : Session.acquire timestamp (r.session, r.writer) = .ok outcome left) :
    (r.step (.acquire timestamp)).session = left.1 := by
  have hperform : (SessionCall.acquire timestamp).perform (r.session, r.writer) = .ok () left :=
    bind_of_ok h
  simp only [step, hperform]

theorem step_of_error {e : SessionError}
    (h : Session.acquire timestamp (r.session, r.writer) = .error e left) :
    (r.step (.acquire timestamp)).session = left.1 := by
  have hperform : (SessionCall.acquire timestamp).perform (r.session, r.writer) = .error e left :=
    bind_of_error h
  simp only [step, hperform]

end Acquire

/-- What every operation but a cycle keeps holds of the session after it. -/
theorem step_timeless {P : Session β → Prop} (hP : Session.Timeless P) {r : SessionRun β ω}
    {c : SessionCall} (hc : ∀ timestamp, c ≠ .acquire timestamp) (h : P r.session) :
    P (r.step c).session := by
  have hkeeps := c.perform_timeless (ω := ω) hP hc
  unfold step
  split
  next hrun => exact hkeeps.ok (s := (r.session, r.writer)) h hrun
  next hrun => exact hkeeps.error (s := (r.session, r.writer)) h hrun

/-- An operation counts as the cycle that it completes, if any. -/
theorem step_counts (r : SessionRun β ω) (c : SessionCall) :
    (∀ cycle ∈ r.cycle? c, cycle.Sound) ∧ (r.step c).session.stats =
      match r.cycle? c with
      | some cycle => r.session.stats.after cycle
      | none => r.session.stats := by
  by_cases hc : ∀ timestamp, c ≠ .acquire timestamp
  · have hnone : r.cycle? c = none := by
      cases c with
      | acquire timestamp => exact absurd rfl (hc timestamp)
      | _ => rfl
    rw [hnone]
    exact ⟨nofun, step_timeless (P := fun s => s.stats = r.session.stats)
      (fun _ _ _ _ _ _ _ h => h) hc rfl⟩
  obtain ⟨timestamp, rfl⟩ : ∃ timestamp, c = .acquire timestamp := by
    simpa using hc
  have hcycle := Session.acquire_counts r.session.stats timestamp (r.session, r.writer) rfl
  cases hrun : Session.acquire timestamp (r.session, r.writer) with
  | ok outcome left =>
    rw [hrun] at hcycle
    obtain ⟨readout, hreadout, hsound, hstats⟩ := hcycle
    rw [cycle?_of_ok hrun, step_of_ok hrun, hreadout]
    refine ⟨?_, hstats⟩
    rintro _ ⟨⟩
    exact hsound
  | error e left =>
    rw [hrun] at hcycle
    rw [cycle?_of_error hrun, step_of_error hrun]
    exact ⟨nofun, hcycle⟩

/-- A run counts as the cycles that it completes. -/
theorem run_grows (r : SessionRun β ω) (calls : List SessionCall) :
    (∀ cycle ∈ r.cycles calls, cycle.Sound) ∧
      r.session.stats.Grown (r.run calls).session.stats (r.cycles calls) := by
  induction calls generalizing r with
  | nil => exact ⟨nofun, .refl _⟩
  | cons c calls ih =>
    obtain ⟨hsound, hgrown⟩ := ih (r.step c)
    obtain ⟨hcycle, hstats⟩ := r.step_counts c
    have hone : r.session.stats.Grown (r.step c).session.stats (r.cycle? c).toList := by
      rw [hstats]
      cases r.cycle? c with
      | none => exact .refl _
      | some cycle => exact Stats.grown_after _ cycle
    refine ⟨fun cycle hmem => ?_, hone.trans hgrown⟩
    obtain hmem | hmem := List.mem_append.1 hmem
    · exact hcycle cycle (Option.mem_toList.1 hmem)
    · exact hsound cycle hmem

end SessionRun

/-! ## Main result -/

/-- Totals that some cycles add up to, modulo 2^64, as each of them was answered. -/
structure Stats.AddUp (t : Stats) (cycles : List AnsweredCycle) : Prop where
  sound : ∀ c ∈ cycles, c.Sound
  count : t.cycles = UInt64.ofNat cycles.length
  idle : t.idleCycles = UInt64.ofNat (cycles.countP (·.isIdle))
  lost : t.lostCycles = UInt64.ofNat (cycles.countP (·.isLost))
  failed : t.failedWrites = UInt64.ofNat (cycles.countP (·.isWriteFailed))
  written : t.cycles - t.idleCycles - t.lostCycles - t.failedWrites =
    UInt64.ofNat (cycles.countP (·.isWritten))
  /-- The bytes of the readouts of all cycles that were not idle. -/
  bytes : t.bytesRead = UInt64.ofNat (AnsweredCycle.bytesOf cycles)
  /-- The events of the readouts of all cycles that were written or not stored. -/
  events : t.eventsFound = UInt64.ofNat (AnsweredCycle.eventsOf cycles)

/-- **Totals.** After any operations on a fresh session, with whatever outcomes, its totals are
those of the cycles that have answered. A cycle that has failed and any other operation, wherever it
is made, leave the totals as they are. -/
theorem SessionRun.stats_addUp (board : β) (options : SessionOptions) (writer : ω)
    (calls : List SessionCall) :
    ((SessionRun.ofBoard board options writer).run calls).session.stats.AddUp
        ((SessionRun.ofBoard board options writer).cycles calls) ∧
      ∀ (r : SessionRun β ω) (c : SessionCall),
        (∀ timestamp outcome left, c = .acquire timestamp →
          Session.acquire timestamp (r.session, r.writer) ≠ .ok outcome left) →
        (r.step c).session.stats = r.session.stats := by
  constructor
  · obtain ⟨hsound, hgrown⟩ := (SessionRun.ofBoard board options writer).run_grows calls
    generalize ((SessionRun.ofBoard board options writer).run calls).session.stats = t at hgrown ⊢
    generalize (SessionRun.ofBoard board options writer).cycles calls = cycles at hsound hgrown ⊢
    have hzero : (SessionRun.ofBoard board options writer).session.stats = {} := rfl
    rw [hzero] at hgrown
    have hcount := hgrown.count
    have hidle := hgrown.idle
    have hlost := hgrown.lost
    have hfailed := hgrown.failed
    simp only [UInt64.zero_add] at hcount hidle hlost hfailed
    refine ⟨hsound, hcount, hidle, hlost, hfailed, ?_, ?_, ?_⟩
    · rw [hcount, hidle, hlost, hfailed, AnsweredCycle.countP_outcomes]
      simp only [UInt64.ofNat_add]
      grind
    · rw [hgrown.bytes, UInt64.zero_add]
    · rw [hgrown.events, UInt64.zero_add]
  · intro r c hc
    have hnone : r.cycle? c = none := by
      cases c with
      | acquire timestamp =>
        cases hrun : Session.acquire timestamp (r.session, r.writer) with
        | ok outcome left => exact absurd hrun (hc timestamp outcome left rfl)
        | error e left => exact cycle?_of_error hrun
      | _ => rfl
    rw [(r.step_counts c).2, hnone]

end PulseDaq
