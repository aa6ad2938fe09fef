import PulseDaq.Proofs.Acquisition.Logged
import PulseDaq.Proofs.Session.Statistics

/-!
# What acquisitions report

An acquisition asks until the board is ready, tries cycles until it is told to stop or one of them
fails, and closes its session once. It reports every cycle that has answered, in order, and then its
end.

* `Follows`: the timestamps of one digitizer, which never repeat.
* `Course`: the cycles of an acquisition as they were tried, up to its end. There is one
  (`Course.exists_of_bounded`), and it decides what the acquisition does (`Course.runFrom_eq`).
* `LoggedWriter.timestamps`: what the writer is handed in a course (`Course.handed`).
* `Acquisition.run_accounted`: the main result.
-/

namespace PulseDaq

variable {β ω : Type}

/-! ## Timestamps -/

/-- The first timestamp is the time. Any other is the time or, if that is later, one past the last
timestamp. -/
def Follows (last : Option UInt64) (now timestamp : UInt64) : Prop :=
  match last with
  | none => timestamp = now
  | some l => timestamp.toNat = max now.toNat (l.toNat + 1)

/-- As long as there is a number past the last timestamp, there is a timestamp that follows. -/
theorem Follows.of_bounded {last : Option UInt64} (now : UInt64)
    (h : ∀ l ∈ last, l.toNat + 1 < UInt64.size) : Follows last now (stamp last now) := by
  cases last with
  | none => rfl
  | some l =>
    have hl := h l rfl
    have hone : (l + 1).toNat = l.toNat + 1 := by
      rw [UInt64.toNat_add]
      exact Nat.mod_eq_of_lt hl
    show (stamp (some l) now).toNat = max now.toNat (l.toNat + 1)
    unfold stamp
    dsimp only
    split
    next hle =>
      rw [UInt64.le_iff_toNat_le] at hle
      omega
    next hlt =>
      rw [UInt64.le_iff_toNat_le] at hlt
      omega

namespace Follows

variable {last : Option UInt64} {now timestamp : UInt64}

/-- No other timestamp follows. -/
theorem eq_stamp (h : Follows last now timestamp) : timestamp = stamp last now := by
  cases last with
  | none => exact h
  | some l =>
    replace h : timestamp.toNat = max now.toNat (l.toNat + 1) := h
    have hl : l.toNat + 1 < UInt64.size := by
      have := timestamp.toNat_lt_size
      omega
    have hstamp : Follows (some l) now (stamp (some l) now) :=
      .of_bounded now fun _ h => Option.some.inj h ▸ hl
    exact UInt64.toNat_inj.1 (h.trans hstamp.symm)

theorem lt {l : UInt64} (h : Follows (some l) now timestamp) : l < timestamp := by
  replace h : timestamp.toNat = max now.toNat (l.toNat + 1) := h
  rw [UInt64.lt_iff_toNat_lt]
  omega

/-- A timestamp stays in reach of the clock and the last timestamp. -/
theorem le_max (h : Follows last now timestamp) (bound : Nat) (hnow : now.toNat ≤ bound)
    (hlast : ∀ l ∈ last, l.toNat + 1 ≤ bound) : timestamp.toNat ≤ bound := by
  cases last with
  | none =>
    obtain rfl : timestamp = now := h
    exact hnow
  | some l =>
    replace h : timestamp.toNat = max now.toNat (l.toNat + 1) := h
    have := hlast l rfl
    omega

end Follows

/-! ## One cycle -/

/-- The timestamp of what a writer is to store. -/
def WriterCall.timestamp? : WriterCall → Option UInt64
  | .writeBuffer _ _ _ timestamp => some timestamp
  | .writeSet _ _ timestamp => some timestamp
  | .writeEvents _ _ timestamp => some timestamp
  | .addDigitizer _ => none
  | .close => none

/-- The timestamps of what a writer was to store, in the order of its calls. -/
def LoggedWriter.timestamps (l : LoggedWriter ω) : List UInt64 :=
  (l.calls.filterMap WriterCall.timestamp?).reverse

namespace Session

variable [Board β] [DataWriter ω]

omit [Board β] in
/-- A session has its name for good. -/
theorem id_timeless (id : UInt64) : Timeless fun s : Session β => s.id = id :=
  fun _ _ _ _ _ _ _ h => h

theorem acquire_id (id timestamp : UInt64) :
    Preserves (fun x : Session β × ω => x.1.id = id) (acquire timestamp) := by
  rintro ⟨s, w⟩ hid
  have hrun := acquire_triple (P := fun s : Session β => s.id = id) (R := fun _ => True)
    ⟨fun _ _ _ h => h, fun _ _ _ h => h⟩ (.anything _) timestamp w (s, w) ⟨⟨hid, trivial⟩, rfl⟩
  cases hcycle : acquire timestamp (s, w) with
  | ok outcome left =>
    rw [hcycle] at hrun
    obtain ⟨s₁, stats, records, ⟨-, hid⟩, -, hleft⟩ := hrun
    exact (congrArg Session.id hleft).trans hid
  | error e left =>
    rw [hcycle] at hrun
    exact hrun.1.1

/-- A cycle hands the writer nothing, or its timestamp once; nothing if it fails. -/
theorem acquire_handed (stamps : List UInt64) (timestamp : UInt64) :
    Triple (fun x : Session β × LoggedWriter ω => x.2.timestamps = stamps) (acquire timestamp)
      (fun _ x => x.2.timestamps = stamps ∨ x.2.timestamps = stamps ++ [timestamp])
      fun _ x => x.2.timestamps = stamps := by
  rintro ⟨s, w⟩ rfl
  obtain hrefused | ⟨hstate, layout, readout, records, hlayout, hreadout, hrecords⟩ :=
    acquire_cases s timestamp w
  · rw [hrefused]
  rw [acquire_eq hstate hlayout hreadout hrecords]
  cases retried (readInto readout) s with
  | error e s₁ => rfl
  | ok buffer s₁ =>
    dsimp only [settle]
    by_cases hbytes : buffer.bytes = []
    · rw [if_pos hbytes]
      exact .inl rfl
    rw [if_neg hbytes]
    cases records.clear.fill layout.kind buffer.bytes with
    | mk result filled =>
      cases result with
      | error e => exact .inl rfl
      | ok events =>
        simp only [store, DataWriter.writeBuffer, LoggedWriter.note]
        cases WriterCall.perform _ w.writer with
        | ok _ w' => exact .inr List.reverse_cons
        | error e w' => exact .inr List.reverse_cons

/-- The log of the writer changes nothing about a cycle. -/
theorem acquire_unlogged (timestamp : UInt64) (x : Session β × LoggedWriter ω) :
    acquire timestamp (x.1, x.2.writer) = match acquire timestamp x with
      | .ok outcome y => .ok outcome (y.1, y.2.writer)
      | .error e y => .error e (y.1, y.2.writer) := by
  obtain ⟨outcome, y, z, hy, hz, hpair⟩ | ⟨e, y, z, hy, hz, hpair⟩ :=
    (acquire_simulates (.refl β) (LoggedWriter.twins ω) timestamp).cases
      (s := x) (t := (x.1, x.2.writer)) ⟨twins_eq ▸ rfl, rfl⟩
  all_goals
    rw [hy, hz]
    have hsession : y.1 = z.1 := twins_eq ▸ hpair.1
    exact congrArg _ (Prod.ext hsession.symm hpair.2.symm)

end Session

/-! ## Courses -/

/-- A cycle that was tried when the clock said `now`, with its timestamp, and with the totals right
after it or what it failed with. -/
structure Attempt where
  now : UInt64
  timestamp : UInt64
  outcome : Except SessionError Stats

/-- What is reported of a cycle. -/
def Attempt.report? (id : UInt64) (a : Attempt) : Option Progress :=
  match a.outcome with
  | .ok stats => some (.cycle id a.timestamp stats)
  | .error _ => none

/-- It is time to stop, or there are no more readings. -/
def Stopping (readings : List Reading) : Prop :=
  ∀ r ∈ readings.head?, r.keepRunning = false

section Course

variable [Board β] [DataWriter ω]

/-- The cycles that are tried from a running acquisition on, what they leave behind, and the failure
of the last one. -/
inductive Cycles : Option UInt64 → List Reading → Session β × ω → List Attempt → Session β × ω →
    Option SessionError → Prop
  | stopped {last : Option UInt64} {readings : List Reading} {x : Session β × ω}
    (stop : Stopping readings) : Cycles last readings x [] x none
  | answered {last : Option UInt64} {r : Reading} {readings : List Reading}
    {x y left : Session β × ω} {timestamp : UInt64} {outcome : Cycle} {tried : List Attempt}
    {failure : Option SessionError} (keep : r.keepRunning = true)
    (follows : Follows last r.now timestamp) (cycle : Session.acquire timestamp x = .ok outcome y)
    (rest : Cycles (some timestamp) readings y tried left failure) :
    Cycles last (r :: readings) x (⟨r.now, timestamp, .ok y.1.stats⟩ :: tried) left failure
  | failed {last : Option UInt64} {r : Reading} {readings : List Reading} {x y : Session β × ω}
    {timestamp : UInt64} {e : SessionError}
    (keep : r.keepRunning = true) (follows : Follows last r.now timestamp)
    (cycle : Session.acquire timestamp x = .error e y) :
    Cycles last (r :: readings) x [⟨r.now, timestamp, .error e⟩] y (some e)

/-- The same from the first question whether the board is ready. -/
inductive Course : List Reading → Session β × ω → List Attempt → Session β × ω →
    Option SessionError → Prop
  | failed {readings : List Reading} {s s' : Session β} {w : ω} {e : SessionError}
    (poll : s.poll = .error e s') : Course readings (s, w) [] (s', w) (some e)
  | givenUp {readings : List Reading} {s s' : Session β} {w : ω}
    (poll : s.poll = .ok false s') (stop : Stopping readings) :
    Course readings (s, w) [] (s', w) none
  | waited {r : Reading} {readings : List Reading} {s s' : Session β} {w : ω} {left : Session β × ω}
    {tried : List Attempt} {failure : Option SessionError}
    (poll : s.poll = .ok false s') (keep : r.keepRunning = true)
    (rest : Course readings ({ s' with waited := s'.waited + s'.options.readyPoll }, w) tried left
      failure) : Course (r :: readings) (s, w) tried left failure
  | started {readings : List Reading} {s s' : Session β} {w : ω} {left : Session β × ω}
    {tried : List Attempt} {failure : Option SessionError}
    (poll : s.poll = .ok true s')
    (cycles : Cycles none readings.tail (s', w) tried left failure) :
    Course readings (s, w) tried left failure

/-- A session is closed, and what that fails with. -/
inductive Closing (s : Session β) : Session β → Option SessionError → Prop
  | closed {final : Session β} (close : s.close = .ok () final) : Closing s final none
  | failed {final : Session β} {e : SessionError} (close : s.close = .error e final) :
    Closing s final (some e)

variable {last : Option UInt64} {readings : List Reading} {x left : Session β × ω}
  {tried : List Attempt} {failure : Option SessionError}

/-! ## Every acquisition has a course -/

theorem Cycles.exists_of_bounded (last : Option UInt64) (readings : List Reading)
    (hnow : ∀ r ∈ readings, r.now.toNat + readings.length < UInt64.size)
    (hlast : ∀ l ∈ last, l.toNat + readings.length < UInt64.size) (x : Session β × ω) :
    ∃ tried left failure, Cycles last readings x tried left failure := by
  induction readings generalizing last x with
  | nil => exact ⟨_, _, _, .stopped nofun⟩
  | cons r readings ih =>
    cases hkeep : r.keepRunning with
    | false => exact ⟨_, _, _, .stopped fun _ h => Option.some.inj h ▸ hkeep⟩
    | true =>
      rw [List.length_cons] at hnow hlast
      have hr := hnow r List.mem_cons_self
      have hfollows : Follows last r.now (stamp last r.now) := .of_bounded _ fun l hl => by
        have := hlast l hl
        omega
      cases hcycle : Session.acquire (stamp last r.now) x with
      | error e y => exact ⟨_, _, _, .failed hkeep hfollows hcycle⟩
      | ok outcome y =>
        have hle := hfollows.le_max (UInt64.size - 1 - readings.length) (by omega) fun l hl => by
            have := hlast l hl
            omega
        obtain ⟨tried, left, failure, hrest⟩ := ih (some (stamp last r.now))
          (fun r' hr' => by
            have := hnow r' (List.mem_cons_of_mem _ hr')
            omega)
          (fun l hl => by
            obtain rfl := Option.some.inj hl
            omega) y
        exact ⟨_, _, _, .answered hkeep hfollows hcycle hrest⟩

/-- If the clock is far enough from its end for all readings, there is a course. -/
theorem Course.exists_of_bounded (readings : List Reading)
    (hnow : ∀ r ∈ readings, r.now.toNat + readings.length < UInt64.size) (x : Session β × ω) :
    ∃ tried left failure, Course readings x tried left failure := by
  induction readings generalizing x with
  | nil =>
    obtain ⟨s, w⟩ := x
    cases hpoll : s.poll with
    | error e s' => exact ⟨_, _, _, .failed hpoll⟩
    | ok started s' =>
      cases started with
      | false => exact ⟨_, _, _, .givenUp hpoll nofun⟩
      | true => exact ⟨_, _, _, .started hpoll (.stopped nofun)⟩
  | cons r readings ih =>
    obtain ⟨s, w⟩ := x
    have hbound : ∀ r' ∈ readings, r'.now.toNat + readings.length < UInt64.size := fun r' hr' => by
      have := hnow r' (List.mem_cons_of_mem _ hr')
      rw [List.length_cons] at this
      omega
    cases hpoll : s.poll with
    | error e s' => exact ⟨_, _, _, .failed hpoll⟩
    | ok started s' =>
      cases started with
      | true =>
        obtain ⟨tried, left, failure, hcycles⟩ :=
          Cycles.exists_of_bounded none readings hbound nofun (s', w)
        exact ⟨_, _, _, .started hpoll hcycles⟩
      | false =>
        cases hkeep : r.keepRunning with
        | false => exact ⟨_, _, _, .givenUp hpoll fun _ h => Option.some.inj h ▸ hkeep⟩
        | true =>
          obtain ⟨tried, left, failure, hrest⟩ := ih hbound _
          exact ⟨_, _, _, .waited hpoll hkeep hrest⟩

/-! ## What a course decides -/

theorem Cycles.id_eq (h : Cycles last readings x tried left failure) : left.1.id = x.1.id := by
  induction h with
  | stopped stop => rfl
  | answered keep follows cycle rest ih => exact ih.trans ((Session.acquire_id _ _).ok rfl cycle)
  | failed keep follows cycle => exact (Session.acquire_id _ _).error rfl cycle

theorem Course.id_eq (h : Course readings x tried left failure) : left.1.id = x.1.id := by
  have hpoll (s : Session β) := (Session.id_timeless (β := β) s.id).lasting.poll
  induction h with
  | failed poll => exact (hpoll _).error rfl poll
  | givenUp poll stop => exact (hpoll _).ok rfl poll
  | @waited _ _ s s' _ _ _ _ poll keep rest ih =>
    have hid : s'.id = s.id := (hpoll s).ok rfl poll
    exact ih.trans hid
  | started poll cycles => exact cycles.id_eq.trans ((hpoll _).ok rfl poll)

omit [DataWriter ω] in
theorem Closing.id_eq {s final : Session β} {closing : Option SessionError}
    (h : Closing s final closing) : final.id = s.id := by
  have hclose := (Session.id_timeless (β := β) s.id).lasting.close
  cases h with
  | closed close => exact hclose.ok rfl close
  | failed close => exact hclose.error rfl close

theorem Stopping.headD (h : Stopping readings) :
    (readings.headD Acquisition.stopping).keepRunning = false := by
  cases readings with
  | nil => rfl
  | cons r readings => exact h r rfl

namespace Acquisition

variable {s final : Session β} {closing : Option SessionError} {w w' : ω}

omit [DataWriter ω] in
theorem finish_eq (h : Closing s final closing) (failure : Option SessionError) :
    finish s failure = ({ session := final, phase := .finished (failure <|> closing) },
      [.finished final.id final.stats (failure <|> closing)]) := by
  unfold finish
  cases h with
  | closed close =>
    rw [close]
    cases failure with
    | none => rfl
    | some e => rfl
  | failed close => rw [close]

omit [DataWriter ω] in
theorem exists_closing (s : Session β) : ∃ final closing, Closing s final closing := by
  cases hclose : s.close with
  | ok _ final => exact ⟨final, none, .closed hclose⟩
  | error e final => exact ⟨final, some e, .failed hclose⟩

/-- A finished acquisition has no more news. -/
theorem runFrom_finished {a : Acquisition β} {error : Option SessionError}
    (h : a.phase = .finished error) (news : List Progress) (readings : List Reading) (w : ω) :
    runFrom news readings a w = ((a, news), w) := by
  have hstep (r : Reading) : step r a w = ((a, []), w) := by
    unfold step
    rw [h]
  induction readings generalizing news with
  | nil => simp only [runFrom, hstep, List.append_nil]
  | cons r readings ih => simp only [runFrom, hstep, List.append_nil, ih]

/-- If the next step is the end, it is what comes of the acquisition. -/
theorem runFrom_of_finish {a : Acquisition β}
    (h : step (readings.headD stopping) a w = (finish s failure, w')) (news : List Progress) :
    runFrom news readings a w =
      (((finish s failure).1, news ++ (finish s failure).2), w') := by
  obtain ⟨final, closing, hclosing⟩ := exists_closing s
  rw [finish_eq hclosing] at h ⊢
  cases readings with
  | nil =>
    simp only [runFrom, List.headD_nil] at h ⊢
    rw [h]
    simp only [step, List.append_nil]
  | cons r readings =>
    simp only [runFrom, List.headD_cons] at h ⊢
    rw [h]
    exact runFrom_finished rfl _ readings w'

end Acquisition

open Acquisition (finish runFrom runFrom_of_finish step stepCycling stepWaiting)

theorem Cycles.runFrom_eq (h : Cycles last readings x tried left failure) (news : List Progress) :
    runFrom news readings { session := x.1, phase := .cycling last } x.2 =
      (((finish left.1 failure).1,
        news ++ tried.filterMap (·.report? x.1.id) ++ (finish left.1 failure).2), left.2) := by
  induction h generalizing news with
  | @stopped last readings x stop =>
    have hstep : step (readings.headD Acquisition.stopping)
        { session := x.1, phase := .cycling last } x.2 = (finish x.1 none, x.2) := by
      simp only [step, stepCycling, stop.headD, Bool.false_eq_true, if_false]
    exact (runFrom_of_finish hstep news).trans (by simp)
  | @answered last r readings x y left timestamp outcome tried failure keep follows cycle rest ih =>
    obtain rfl := follows.eq_stamp
    have hid : y.1.id = x.1.id := (Session.acquire_id x.1.id _).ok rfl cycle
    have hstep : step r { session := x.1, phase := .cycling last } x.2 =
        (({ session := y.1, phase := .cycling (some (stamp last r.now)) },
          [.cycle y.1.id (stamp last r.now) y.1.stats]), y.2) := by
      simp only [step, stepCycling, keep, if_true, cycle]
    simp only [runFrom, hstep, ih, hid, List.filterMap_cons, Attempt.report?, List.append_assoc,
      List.cons_append, List.nil_append]
  | @failed last r readings x y timestamp e keep follows cycle =>
    obtain rfl := follows.eq_stamp
    have hstep : step ((r :: readings).headD Acquisition.stopping)
        { session := x.1, phase := .cycling last } x.2 = (finish y.1 (some e), y.2) := by
      simp only [List.headD_cons, step, stepCycling, keep, if_true, cycle]
    exact (runFrom_of_finish hstep news).trans (by simp [Attempt.report?])

theorem Course.runFrom_eq (h : Course readings x tried left failure) (news : List Progress) :
    runFrom news readings { session := x.1 } x.2 =
      (((finish left.1 failure).1,
        news ++ tried.filterMap (·.report? x.1.id) ++ (finish left.1 failure).2), left.2) := by
  induction h generalizing news with
  | @failed readings s s' w e poll =>
    have hstep : step (readings.headD Acquisition.stopping) { session := s } w =
        (finish s' (some e), w) := by
      simp only [step, stepWaiting, poll]
    exact (runFrom_of_finish hstep news).trans (by simp)
  | @givenUp readings s s' w poll stop =>
    have hstep : step (readings.headD Acquisition.stopping) { session := s } w =
        (finish s' none, w) := by
      simp only [step, stepWaiting, poll, stop.headD, Bool.false_eq_true, if_false]
    exact (runFrom_of_finish hstep news).trans (by simp)
  | @waited r readings s s' w left tried failure poll keep rest ih =>
    have hid : s'.id = s.id := (Session.id_timeless s.id).lasting.poll.ok rfl poll
    simp only [runFrom, step, stepWaiting, poll, keep, if_true, List.append_nil, ← hid]
    exact ih news
  | @started readings s s' w left tried failure poll cycles =>
    have hid : s'.id = s.id := (Session.id_timeless s.id).lasting.poll.ok rfl poll
    have hrest := cycles.runFrom_eq news
    rw [hid] at hrest
    cases readings with
    | cons r readings =>
      simp only [runFrom, step, stepWaiting, poll, List.append_nil]
      exact hrest
    | nil =>
      -- The last step but one starts the acquisition, and the last one ends it.
      cases cycles
      simp [runFrom, step, stepWaiting, poll, stepCycling, Acquisition.stopping]

/-! ## Timestamps of a course -/

/-- The timestamp of one cycle and that of the next. -/
def Attempt.Linked (a b : Attempt) : Prop :=
  b.timestamp.toNat = max b.now.toNat (a.timestamp.toNat + 1)

theorem Cycles.linked (h : Cycles last readings x tried left failure) :
    (∀ a ∈ tried.head?, Follows last a.now a.timestamp) ∧ tried.IsChain Attempt.Linked := by
  induction h with
  | stopped stop => exact ⟨nofun, .nil⟩
  | failed keep follows cycle =>
    refine ⟨?_, .singleton _⟩
    rintro _ ⟨⟩
    exact follows
  | @answered _ _ _ _ _ _ _ _ tried _ keep follows cycle rest ih =>
    obtain ⟨hnext, hchain⟩ := ih
    refine ⟨?_, ?_⟩
    · rintro _ ⟨⟩
      exact follows
    cases tried with
    | nil => exact .singleton _
    | cons b tried => exact .cons_cons (hnext b rfl) hchain

theorem Course.linked (h : Course readings x tried left failure) :
    (∀ a ∈ tried.head?, a.timestamp = a.now) ∧ tried.IsChain Attempt.Linked := by
  induction h with
  | failed poll => exact ⟨nofun, .nil⟩
  | givenUp poll stop => exact ⟨nofun, .nil⟩
  | waited poll keep rest ih => exact ih
  | started poll cycles => exact cycles.linked

/-- Linked timestamps increase. -/
theorem Attempt.increasing (h : tried.IsChain Attempt.Linked) :
    (tried.map (·.timestamp)).Pairwise (· < ·) := by
  have : Trans (fun a b : Attempt => a.timestamp < b.timestamp)
      (fun a b : Attempt => a.timestamp < b.timestamp)
      fun a b : Attempt => a.timestamp < b.timestamp := ⟨UInt64.lt_trans⟩
  rw [List.pairwise_map]
  refine (h.imp fun a b hlinked => ?_).pairwise
  have hfollows : Follows (some a.timestamp) b.now b.timestamp := hlinked
  exact hfollows.lt

/-! ## What the writer is handed -/

theorem Cycles.unlogged {x left : Session β × LoggedWriter ω}
    (h : Cycles last readings x tried left failure) :
    Cycles last readings (x.1, x.2.writer) tried (left.1, left.2.writer) failure := by
  induction h with
  | stopped stop => exact .stopped stop
  | @answered _ _ _ x _ _ timestamp _ _ _ keep follows cycle rest ih =>
    have hcycle := Session.acquire_unlogged timestamp x
    rw [cycle] at hcycle
    exact .answered keep follows hcycle ih
  | @failed _ _ _ x _ timestamp _ keep follows cycle =>
    have hcycle := Session.acquire_unlogged timestamp x
    rw [cycle] at hcycle
    exact .failed keep follows hcycle

theorem Course.unlogged {x left : Session β × LoggedWriter ω}
    (h : Course readings x tried left failure) :
    Course readings (x.1, x.2.writer) tried (left.1, left.2.writer) failure := by
  induction h with
  | failed poll => exact .failed poll
  | givenUp poll stop => exact .givenUp poll stop
  | waited poll keep rest ih => exact .waited poll keep ih
  | started poll cycles => exact .started poll cycles.unlogged

theorem Cycles.handed {x left : Session β × LoggedWriter ω}
    (h : Cycles last readings x tried left failure) : ∃ more,
      left.2.timestamps = x.2.timestamps ++ more ∧ more.Sublist (tried.map (·.timestamp)) := by
  induction h with
  | stopped stop => exact ⟨[], (List.append_nil _).symm, .slnil⟩
  | failed keep follows cycle =>
    refine ⟨[], ?_, List.nil_sublist _⟩
    rw [(Session.acquire_handed _ _).error rfl cycle, List.append_nil]
  | answered keep follows cycle rest ih =>
    obtain ⟨more, hleft, hmore⟩ := ih
    obtain hsame | hone := (Session.acquire_handed _ _).ok rfl cycle
    · exact ⟨more, hsame ▸ hleft, hmore.cons _⟩
    · refine ⟨_ :: more, ?_, hmore.cons_cons _⟩
      rw [hleft, hone, List.append_assoc]
      rfl

theorem Course.handed {x left : Session β × LoggedWriter ω}
    (h : Course readings x tried left failure) : ∃ more,
      left.2.timestamps = x.2.timestamps ++ more ∧ more.Sublist (tried.map (·.timestamp)) := by
  induction h with
  | failed poll => exact ⟨[], (List.append_nil _).symm, .slnil⟩
  | givenUp poll stop => exact ⟨[], (List.append_nil _).symm, .slnil⟩
  | waited poll keep rest ih => exact ih
  | started poll cycles => exact cycles.handed

/-! ## Main result -/

namespace Acquisition

/-- What comes of acquiring from the session `s`: a course, which leaves a session behind that is
closed. -/
structure Accounted (readings : List Reading) (s : Session β) (w : ω) (tried : List Attempt)
    (left : Session β × ω) (failure : Option SessionError) (final : Session β)
    (closing : Option SessionError) : Prop where
  course : Course readings (s, w) tried left failure
  closed : Closing left.1 final closing
  /-- The news are one report of each cycle that has answered, in order, and one of the end. The
  failure of a cycle or of a question stands before that of closing. -/
  run : run readings s w = (({ session := final, phase := .finished (failure <|> closing) },
    tried.filterMap (·.report? s.id) ++ [.finished s.id final.stats (failure <|> closing)]), left.2)
  result : (Acquisition.run readings s w).1.1.result = match failure <|> closing with
    | none => .ok final.stats
    | some e => .error e
  first : ∀ a ∈ tried.head?, a.timestamp = a.now
  linked : tried.IsChain Attempt.Linked
  increasing : (tried.map (·.timestamp)).Pairwise (· < ·)
  /-- The writer stores under some of the timestamps, in the same order. Its log changes nothing
  about the acquisition. -/
  handed : ∃ l : LoggedWriter ω,
    Acquisition.run readings s (LoggedWriter.mk w []) = ((Acquisition.run readings s w).1, l) ∧
      l.writer = left.2 ∧ l.timestamps.Sublist (tried.map (·.timestamp)) ∧
      l.timestamps.Pairwise (· < ·)

/-- Whatever the board and the writer answer, whatever the clock says as long as it is far enough
from its end, and whenever it is told to stop: an acquisition takes its course and tells of it. -/
theorem run_accounted (readings : List Reading) (s : Session β) (w : ω)
    (hclock : ∀ r ∈ readings, r.now.toNat + readings.length < UInt64.size) :
    ∃ tried left failure final closing,
      Accounted readings s w tried left failure final closing := by
  obtain ⟨tried, ⟨s', l⟩, failure, hlogged⟩ :=
    Course.exists_of_bounded readings hclock (s, LoggedWriter.mk w [])
  have hcourse := hlogged.unlogged
  obtain ⟨final, closing, hclosing⟩ := exists_closing s'
  have hid : final.id = s.id := hclosing.id_eq.trans hcourse.id_eq
  have hrun := hcourse.runFrom_eq []
  have hrunLogged := hlogged.runFrom_eq []
  rw [finish_eq hclosing, hid] at hrun hrunLogged
  obtain ⟨hfirst, hlinked⟩ := hcourse.linked
  have hincreasing := Attempt.increasing hlinked
  obtain ⟨stamps, hstamps, hsub⟩ := hlogged.handed
  obtain rfl : l.timestamps = stamps := hstamps
  refine ⟨tried, (s', l.writer), failure, final, closing, hcourse, hclosing, hrun, ?_, hfirst,
    hlinked, hincreasing, l, ?_, rfl, hsub, hincreasing.sublist hsub⟩
  · rw [run, hrun]
    cases failure <|> closing with
    | none => rfl
    | some e => rfl
  · rw [run, run, hrun, hrunLogged]

end Acquisition

end Course

/-- A board with one group that has nothing to read and fails to be released. -/
def boardFailingToClose : ScriptedBoard where
  registers := [((.groupEnableMask, none), 1)]
  failures
    | .close => [some (.board (-1) "dead")]
    | _ => []

/-- A session of that board that is ready. -/
def readyToIdle : Session ScriptedBoard :=
  ((SessionRun.ofBoard boardFailingToClose {} ({} : Totals)).run [.initialise, .prepare]).session

/-- The clock stands still and is set back. -/
def clockSetBack : List Reading :=
  [⟨true, 1⟩, ⟨true, 7⟩, ⟨true, 7⟩, ⟨true, 3⟩]

/-- The timestamps go on, and the end is reported with the error of closing. -/
theorem clockSetBack_accounted :
    (∀ r ∈ clockSetBack, r.now.toNat + clockSetBack.length < UInt64.size) ∧
    (∃ tried left failure final closing, Acquisition.Accounted clockSetBack readyToIdle
      ({} : Totals) tried left failure final closing) ∧
    (Acquisition.run clockSetBack readyToIdle ({} : Totals)).1.2 =
      [.cycle 1 7 { cycles := 1, idleCycles := 1 }, .cycle 1 8 { cycles := 2, idleCycles := 2 },
        .cycle 1 9 { cycles := 3, idleCycles := 3 },
        .finished 1 { cycles := 3, idleCycles := 3 } (some (.board (.board (-1) "dead")))] := by
  have hclock : ∀ r ∈ clockSetBack, r.now.toNat + clockSetBack.length < UInt64.size := by decide
  exact ⟨hclock, Acquisition.run_accounted clockSetBack readyToIdle ({} : Totals) hclock,
    by decide +kernel⟩

end PulseDaq
