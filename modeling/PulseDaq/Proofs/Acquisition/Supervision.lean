import Mathlib.Data.List.Perm.Subperm
import PulseDaq.Acquisition.Supervisor
import PulseDaq.Proofs.Acquisition.Reports
import PulseDaq.Proofs.Acquisition.Shutdown
import PulseDaq.Proofs.Lists
import PulseDaq.Run.Record

/-!
# Acquisitions under a supervisor

Every acquisition of a run has a thread of its own. It sees the supervisor's flag when it looks,
acts on what it has seen some time later, and sends reports, which arrive later still, those of one
thread in the order in which they were sent. All of this happens in any order (`Crew.run`).

* `Acquisition.Outcome`: what one step may do.
* `Thread.Faithful`: what a thread has reported of its cycles and its end.
* `Supervisor.Knows`: what the supervisor makes of the reports that have arrived.
* `Crew.Sound`: the invariant of all of them together, which every move keeps.
* `Crew.run_supervised`: the main result.
-/

namespace PulseDaq

variable {β ω : Type}

/-! ## One step -/

namespace Acquisition

/-- What one step does: a finished acquisition stays as it is, a waiting one may go on without news,
and any other completes a cycle or ends. It ends without an error only if it has seen that it is
time to stop. -/
inductive Outcome (r : Reading) (a : Acquisition β) : Acquisition β × List Progress → Prop
  | stays (finished : a.isFinished = true) : Outcome r a (a, [])
  | quiet {a' : Acquisition β} (going : a.isFinished = false) (still : a'.isFinished = false)
    (id : a'.session.id = a.session.id) (stats : a'.session.stats = a.session.stats) :
    Outcome r a (a', [])
  | cycled {a' : Acquisition β} {timestamp : UInt64} (going : a.isFinished = false)
    (still : a'.isFinished = false) (id : a'.session.id = a.session.id)
    (count : a'.session.stats.cycles = a.session.stats.cycles + 1) :
    Outcome r a (a', [.cycle a'.session.id timestamp a'.session.stats])
  | ended {a' : Acquisition β} {error : Option SessionError} (going : a.isFinished = false)
    (phase : a'.phase = .finished error) (id : a'.session.id = a.session.id)
    (stats : a'.session.stats = a.session.stats) (stop : error = none → r.keepRunning = false) :
    Outcome r a (a', [.finished a'.session.id a'.session.stats error])

/-- A result is the totals of the session, if it is no failure. -/
theorem stats_of_result {a : Acquisition β} {stats : Stats} (h : a.result = .ok stats) :
    a.session.stats = stats := by
  unfold result at h
  split at h <;> cases h
  rfl

variable [Board β]

theorem finish_outcome {r : Reading} {a : Acquisition β} {s : Session β}
    {failure : Option SessionError} (going : a.isFinished = false) (hid : s.id = a.session.id)
    (hstats : s.stats = a.session.stats) (hstop : failure = none → r.keepRunning = false) :
    Outcome r a (finish s failure) := by
  obtain ⟨final, closing, hclosing⟩ := exists_closing s
  have hkept : final.id = a.session.id ∧ final.stats = a.session.stats := by
    have hclose := (Session.Timeless.lasting (β := β)
      (P := fun s => s.id = a.session.id ∧ s.stats = a.session.stats)
      fun _ _ _ _ _ _ _ h => h).close
    cases hclosing with
    | closed close => exact hclose.ok ⟨hid, hstats⟩ close
    | failed close => exact hclose.error ⟨hid, hstats⟩ close
  rw [finish_eq hclosing]
  refine .ended going rfl hkept.1 hkept.2 fun hnone => hstop ?_
  cases failure with
  | none => rfl
  | some e => cases hnone

theorem stepWaiting_outcome (r : Reading) {a : Acquisition β} (hphase : a.phase = .waiting) :
    Outcome r a (stepWaiting r a.session) := by
  have going : a.isFinished = false := by rw [isFinished, hphase]
  have hpoll := (Session.Timeless.lasting (β := β)
    (P := fun s => s.id = a.session.id ∧ s.stats = a.session.stats) fun _ _ _ _ _ _ _ h => h).poll
  unfold stepWaiting
  cases hrun : a.session.poll with
  | error e s =>
    obtain ⟨hid, hstats⟩ := hpoll.error ⟨rfl, rfl⟩ hrun
    exact finish_outcome going hid hstats nofun
  | ok started s =>
    obtain ⟨hid, hstats⟩ := hpoll.ok ⟨rfl, rfl⟩ hrun
    cases started with
    | true => exact .quiet going rfl hid hstats
    | false =>
      dsimp only
      split
      · exact .quiet going rfl hid hstats
      next hstop => exact finish_outcome going hid hstats fun _ => Bool.not_eq_true _ ▸ hstop

variable [DataWriter ω]

theorem stepCycling_outcome (r : Reading) {a : Acquisition β} {last : Option UInt64}
    (hphase : a.phase = .cycling last) (w : ω) :
    Outcome r a (stepCycling r last a.session w).1 := by
  have going : a.isFinished = false := by rw [isFinished, hphase]
  unfold stepCycling
  dsimp only
  split
  next hkeep =>
    have hcounts := Session.acquire_counts a.session.stats (stamp last r.now) (a.session, w) rfl
    have hid := Session.acquire_id (ω := ω) a.session.id (stamp last r.now) (a.session, w) rfl
    cases hcycle : Session.acquire (stamp last r.now) (a.session, w) with
    | error e y =>
      rw [hcycle] at hcounts hid
      exact finish_outcome going hid hcounts nofun
    | ok outcome y =>
      rw [hcycle] at hcounts hid
      obtain ⟨readout, -, -, hstats⟩ := hcounts
      refine .cycled going rfl hid ?_
      rw [hstats]
      exact (Stats.grown_after _ _).count
  next hstop => exact finish_outcome going rfl rfl fun _ => Bool.not_eq_true _ ▸ hstop

/-- Every step has one of these outcomes. -/
theorem step_outcome (r : Reading) (a : Acquisition β) (w : ω) : Outcome r a (step r a w).1 := by
  unfold step
  cases hphase : a.phase with
  | waiting => exact stepWaiting_outcome r hphase
  | cycling last => exact stepCycling_outcome r hphase w
  | finished error => exact .stays (by rw [isFinished, hphase])

end Acquisition

/-! ## Threads -/

namespace Progress

/-- The digitizer that the news are of. -/
def id : Progress → UInt64
  | .cycle id _ _ => id
  | .finished id _ _ => id

def stats : Progress → Stats
  | .cycle _ _ stats => stats
  | .finished _ stats _ => stats

def isCycle : Progress → Bool
  | .cycle _ _ _ => true
  | .finished _ _ _ => false

end Progress

/-- The reports of the cycles of one digitizer since its first one: each has the totals after so
many cycles. -/
def Numbered (id : UInt64) (reports : List Progress) : Prop :=
  ∀ k p, reports[k]? = some p →
    p.isCycle = true ∧ p.id = id ∧ p.stats.cycles = UInt64.ofNat (k + 1)

namespace Numbered

variable {id : UInt64} {reports earlier : List Progress}

theorem concat (h : Numbered id reports) {timestamp : UInt64} {stats : Stats}
    (hcount : stats.cycles = UInt64.ofNat (reports.length + 1)) :
    Numbered id (reports ++ [.cycle id timestamp stats]) := by
  intro k p hp
  rw [List.getElem?_append] at hp
  split at hp
  · exact h k p hp
  next hk =>
    rw [List.getElem?_singleton] at hp
    split at hp
    · obtain rfl := Option.some.inj hp
      obtain rfl : k = reports.length := by omega
      exact ⟨rfl, rfl, hcount⟩
    · cases hp

theorem of_isPrefix (h : Numbered id reports) (hpart : earlier <+: reports) :
    Numbered id earlier := by
  obtain ⟨later, rfl⟩ := hpart
  intro k p hp
  obtain ⟨hk, -⟩ := List.getElem?_eq_some_iff.1 hp
  exact h k p ((List.getElem?_append_left hk).trans hp)

theorem isCycle (h : Numbered id reports) {p : Progress} (hp : p ∈ reports) : p.isCycle = true := by
  obtain ⟨k, hk⟩ := List.getElem?_of_mem hp
  exact (h k p hk).1

theorem countP_isCycle (h : Numbered id reports) : reports.countP (·.isCycle) = reports.length :=
  List.countP_eq_length.2 fun _ hp => h.isCycle hp

end Numbered

/-- The thread of an acquisition. -/
structure Thread (β : Type) where
  acquisition : Acquisition β
  /-- What it has seen of the flag and the clock for its next step. -/
  seen : Option Reading := none
  /-- Its reports that have arrived, -/
  heard : List Progress := []
  /-- and those that have not. -/
  inFlight : List Progress := []

namespace Thread

def id (t : Thread β) : UInt64 :=
  t.acquisition.session.id

def sent (t : Thread β) : List Progress :=
  t.heard ++ t.inFlight

/-- Take a step if there is something that it is to act on. -/
def act [Board β] [DataWriter ω] (t : Thread β) (w : ω) : Thread β × ω :=
  match t.seen with
  | none => (t, w)
  | some r =>
    let ((a, news), w) := t.acquisition.step r w
    ({ t with acquisition := a, seen := none, inFlight := t.inFlight ++ news }, w)

/-- The last report of a thread whose acquisition has come to its end. -/
def farewell (t : Thread β) : List Progress :=
  match t.acquisition.phase with
  | .finished error => [.finished t.id t.acquisition.session.stats error]
  | _ => []

/-- A thread has sent one report of each cycle that it has completed, and then, when its acquisition
has come to its end, one with the final totals. -/
structure Faithful (t : Thread β) (cycles : List Progress) : Prop where
  numbered : Numbered t.id cycles
  count : t.acquisition.session.stats.cycles = UInt64.ofNat cycles.length
  sent : t.sent = cycles ++ t.farewell

section Faithful

variable {t : Thread β} {cycles : List Progress}

theorem farewell_of_going (h : t.acquisition.isFinished = false) : t.farewell = [] := by
  unfold Acquisition.isFinished at h
  unfold farewell
  split
  next hphase => simp [hphase] at h
  · rfl

theorem farewell_of_finished (h : t.acquisition.isFinished = true) :
    ∃ error, t.farewell = [.finished t.id t.acquisition.session.stats error] := by
  unfold Acquisition.isFinished at h
  unfold farewell
  split
  · exact ⟨_, rfl⟩
  · simp at h

/-- What has arrived is of cycles, or all that there is to come. -/
theorem Faithful.heard_cases (h : t.Faithful cycles) :
    t.heard <+: cycles ∨
      t.acquisition.isFinished = true ∧ t.heard = cycles ++ t.farewell ∧ t.inFlight = [] := by
  have hpart : t.heard <+: cycles ++ t.farewell := ⟨t.inFlight, h.sent⟩
  cases hgoing : t.acquisition.isFinished with
  | false =>
    rw [farewell_of_going hgoing, List.append_nil] at hpart
    exact .inl hpart
  | true =>
    obtain ⟨error, hend⟩ := farewell_of_finished hgoing
    rw [hend] at hpart
    obtain hall | hsome := List.prefix_concat_iff.1 hpart
    · have hsent : t.heard ++ t.inFlight = t.heard ++ [] := by
        rw [List.append_nil]
        exact h.sent.trans (hend ▸ hall.symm)
      exact .inr ⟨rfl, hend ▸ hall, List.append_cancel_left hsent⟩
    · exact .inl hsome

theorem Faithful.id_of_mem (h : t.Faithful cycles) {p : Progress} (hp : p ∈ t.sent) :
    p.id = t.id := by
  rw [h.sent, List.mem_append] at hp
  obtain hcycle | hend := hp
  · obtain ⟨k, hk⟩ := List.getElem?_of_mem hcycle
    exact (h.numbered k p hk).2.1
  · unfold farewell at hend
    split at hend
    · rw [List.mem_singleton.1 hend]
      rfl
    · cases hend

/-- The oldest report that is in flight arrives. -/
theorem Faithful.deliver (h : t.Faithful cycles) {p : Progress} {inFlight : List Progress}
    (hp : t.inFlight = p :: inFlight) :
    Faithful { t with heard := t.heard ++ [p], inFlight } cycles where
  numbered := h.numbered
  count := h.count
  sent := by
    have hsent : t.heard ++ [p] ++ inFlight = t.sent := by
      rw [List.append_assoc, List.singleton_append, ← hp]
      rfl
    exact hsent.trans h.sent

end Faithful

/-! ### Acting -/

section Act

variable [Board β] [DataWriter ω]

/-- A thread that acts takes one step. -/
theorem act_cases (t : Thread β) (w : ω) :
    (t.act w).1 = t ∨ ∃ r a news, t.seen = some r ∧ Acquisition.Outcome r t.acquisition (a, news) ∧
      (t.act w).1 =
        { t with acquisition := a, seen := none, inFlight := t.inFlight ++ news } ∧
      (t.act w).1.sent = t.sent ++ news := by
  unfold act
  cases hseen : t.seen with
  | none => exact .inl rfl
  | some r =>
    exact .inr ⟨r, _, _, rfl, t.acquisition.step_outcome r w, rfl, (List.append_assoc _ _ _).symm⟩

theorem act_id (t : Thread β) (w : ω) : (t.act w).1.id = t.id := by
  obtain hact | ⟨r, a, news, -, houtcome, hact, -⟩ := t.act_cases w
  · rw [hact]
  rw [hact]
  cases houtcome with
  | stays finished => rfl
  | quiet going still id stats => exact id
  | cycled going still id count => exact id
  | ended going phase id stats stop => exact id

theorem act_heard (t : Thread β) (w : ω) : (t.act w).1.heard = t.heard := by
  obtain hact | ⟨r, a, news, -, -, hact, -⟩ := t.act_cases w
  all_goals rw [hact]

theorem Faithful.act {t : Thread β} {cycles : List Progress} (h : t.Faithful cycles) (w : ω) :
    ∃ more, (t.act w).1.Faithful more := by
  obtain hact | ⟨r, a, news, -, houtcome, hact, hsent⟩ := t.act_cases w
  · rw [hact]
    exact ⟨cycles, h⟩
  rw [hact] at hsent ⊢
  cases houtcome with
  | stays finished =>
    exact ⟨cycles, h.numbered, h.count, hsent.trans ((List.append_nil _).trans h.sent)⟩
  | quiet going still id stats =>
    have hnumbered : Numbered a.session.id cycles := id ▸ h.numbered
    refine ⟨cycles, hnumbered, stats ▸ h.count, ?_⟩
    rw [hsent, h.sent, farewell_of_going going, farewell_of_going still, List.append_nil]
  | @cycled _ timestamp going still id count =>
    have hnumbered : Numbered a.session.id cycles := id ▸ h.numbered
    have hcount : a.session.stats.cycles = UInt64.ofNat (cycles.length + 1) := by
      rw [count, h.count, UInt64.ofNat_add]
      rfl
    have hmore : Numbered a.session.id
        (cycles ++ [.cycle a.session.id timestamp a.session.stats]) := hnumbered.concat hcount
    refine ⟨_, hmore, ?_, ?_⟩
    · rw [List.length_append]
      exact hcount
    · rw [hsent, h.sent, farewell_of_going going, farewell_of_going still, List.append_nil,
        List.append_nil]
  | @ended _ error going phase id stats stop =>
    have hnumbered : Numbered a.session.id cycles := id ▸ h.numbered
    refine ⟨cycles, hnumbered, stats ▸ h.count, ?_⟩
    rw [hsent, h.sent, farewell_of_going going, List.append_nil]
    simp only [farewell, phase, Thread.id]

end Act

/-! ### A limit of cycles -/

/-- The thread is known to have come to its end. -/
def HasEnded (t : Thread β) : Prop :=
  ∃ p ∈ t.heard, p.isCycle = false

/-- The thread has reported its end or at least `n` cycles, and this has arrived. -/
def Through (n : UInt64) (t : Thread β) : Prop :=
  t.HasEnded ∨ n.toNat ≤ t.heard.countP (·.isCycle)

/-- The thread does not stop of itself before `n` cycles, since it has not seen that it is time to
stop. -/
structure Lasting (n : UInt64) (t : Thread β) : Prop where
  seen : ∀ r, t.seen = some r → r.keepRunning = false → t.Through n
  completed : t.acquisition.phase = .finished none → n.toNat ≤ t.sent.countP (·.isCycle)

theorem Faithful.hasEnded_iff {t : Thread β} {cycles : List Progress} (h : t.Faithful cycles) :
    t.HasEnded ↔ t.acquisition.isFinished = true ∧ t.heard = cycles ++ t.farewell := by
  constructor
  · rintro ⟨p, hp, hend⟩
    obtain hpart | ⟨hfinished, hheard, -⟩ := h.heard_cases
    · rw [(h.numbered.of_isPrefix hpart).isCycle hp] at hend
      cases hend
    · exact ⟨hfinished, hheard⟩
  · rintro ⟨hfinished, hheard⟩
    obtain ⟨error, hend⟩ := farewell_of_finished hfinished
    rw [hend] at hheard
    exact ⟨_, hheard ▸ List.mem_append_right _ (List.mem_singleton_self _), rfl⟩

/-- Later reports do not take anything back. -/
theorem Through.deliver {n : UInt64} {t t' : Thread β} (h : t.Through n)
    (hheard : t.heard <+: t'.heard) : t'.Through n := by
  obtain ⟨p, hp, hend⟩ | hcount := h
  · exact .inl ⟨p, hheard.subset hp, hend⟩
  · exact .inr (Nat.le_trans hcount (hheard.sublist.countP_le))

theorem Lasting.act [Board β] [DataWriter ω] {n : UInt64} {t : Thread β} {cycles : List Progress}
    (hfaithful : t.Faithful cycles) (h : t.Lasting n) (w : ω) : (t.act w).1.Lasting n := by
  obtain hact | ⟨r, a, news, hseen, houtcome, hact, hsent⟩ := t.act_cases w
  · rw [hact]
    exact h
  rw [hact] at hsent ⊢
  refine ⟨nofun, fun hphase => ?_⟩
  rw [hsent, List.countP_append]
  cases houtcome with
  | stays finished => exact h.completed hphase
  | quiet going still id stats =>
    exfalso
    simp [Acquisition.isFinished, show a.phase = _ from hphase] at still
  | cycled going still id count =>
    exfalso
    simp [Acquisition.isFinished, show a.phase = _ from hphase] at still
  | ended going phase id stats stop =>
    -- It ends without an error, so it has seen that it is time to stop.
    obtain rfl : _ = none := AcquisitionPhase.finished.inj (phase.symm.trans hphase)
    have hthrough := h.seen r hseen (stop rfl)
    obtain hended | hcount := hthrough
    · rw [(hfaithful.hasEnded_iff.1 hended).1] at going
      cases going
    · have : t.heard.countP (·.isCycle) ≤ t.sent.countP (·.isCycle) :=
        (List.sublist_append_left _ _).countP_le
      omega

end Thread

/-! ## The supervisor -/

namespace Supervisor

theorem note_eq (s : Supervisor) (p : Progress) : s.note p =
    { s with
      stats := (p.id, p.stats) :: s.stats.filter fun e => e.1 ≠ p.id
      finished := if p.isCycle || s.finished.contains p.id then s.finished
        else p.id :: s.finished } := by
  cases p with
  | cycle id timestamp stats => rfl
  | finished id stats error => rfl

theorem lookup_note (s : Supervisor) (p : Progress) (id : UInt64) :
    (s.note p).stats.lookup id = if id = p.id then some p.stats else s.stats.lookup id := by
  rw [note_eq]
  exact lookup_replace id p.id p.stats s.stats

theorem mem_finished_note (s : Supervisor) (p : Progress) (id : UInt64) :
    id ∈ (s.note p).finished ↔ id ∈ s.finished ∨ p.isCycle = false ∧ id = p.id := by
  rw [note_eq]
  dsimp only
  cases p.isCycle with
  | true => simp
  | false =>
    rw [Bool.false_or]
    split
    next hknown =>
      rw [List.contains_iff_mem] at hknown
      refine ⟨.inl, ?_⟩
      rintro (h | ⟨-, rfl⟩)
      · exact h
      · exact hknown
    next => simp [or_comm]

theorem nodup_finished_note {s : Supervisor} (h : s.finished.Nodup) (p : Progress) :
    (s.note p).finished.Nodup := by
  rw [note_eq]
  dsimp only
  split
  · exact h
  next hnew =>
    simp only [Bool.or_eq_true, List.contains_iff_mem, not_or] at hnew
    exact List.nodup_cons.2 ⟨hnew.2, h⟩

/-- What the supervisor knows of a thread is what it was told by the reports that have arrived. -/
structure Knows (s : Supervisor) (t : Thread β) : Prop where
  stats : s.stats.lookup t.id = t.heard.getLast?.map (·.stats)
  finished : t.id ∈ s.finished ↔ t.HasEnded

/-- A report arrives. -/
theorem Knows.note {s : Supervisor} {t t' : Thread β} (h : s.Knows t) {p : Progress}
    (hid : t'.id = t.id) (hp : p.id = t.id) (hheard : t'.heard = t.heard ++ [p]) :
    (s.note p).Knows t' where
  stats := by
    rw [lookup_note, if_pos (hid.trans hp.symm), hheard, List.getLast?_concat]
    rfl
  finished := by
    rw [mem_finished_note, hid, h.finished, Thread.HasEnded, Thread.HasEnded, hheard]
    simp [hp, or_and_right, exists_or]

/-- The report of another thread arrives. -/
theorem Knows.note_other {s : Supervisor} {t : Thread β} (h : s.Knows t) {p : Progress}
    (hp : t.id ≠ p.id) : (s.note p).Knows t where
  stats := by rw [lookup_note, if_neg hp, h.stats]
  finished := by
    rw [mem_finished_note, h.finished]
    simp [hp]

/-- If the supervisor finds that a thread has done enough, it has. -/
theorem Knows.through {s : Supervisor} {t : Thread β} {cycles : List Progress} (h : s.Knows t)
    (hfaithful : t.Faithful cycles) {n : UInt64} (hthrough : s.isThrough n t.id = true) :
    t.Through n := by
  unfold isThrough at hthrough
  rw [Bool.or_eq_true, List.contains_iff_mem, h.finished, h.stats] at hthrough
  obtain hended | hcount := hthrough
  · exact .inl hended
  obtain hpart | hall := hfaithful.heard_cases
  · have hnumbered := hfaithful.numbered.of_isPrefix hpart
    right
    rw [hnumbered.countP_isCycle]
    -- The last report has the number of all of them, unless that does not fit: then it has less.
    cases hlast : t.heard.getLast? with
    | none => simp [hlast] at hcount
    | some p =>
      have hle : n ≤ p.stats.cycles := by simpa [hlast] using hcount
      rw [List.getLast?_eq_getElem?] at hlast
      obtain ⟨hlt, -⟩ := List.getElem?_eq_some_iff.1 hlast
      rw [(hnumbered _ _ hlast).2.2, UInt64.le_iff_toNat_le, UInt64.toNat_ofNat'] at hle
      exact Nat.le_trans hle (Nat.le_trans (Nat.mod_le _ _) (by omega))
  · exact .inl (hfaithful.hasEnded_iff.2 ⟨hall.1, hall.2.1⟩)

/-- A result that was known before changes nothing. -/
theorem statsOf_join {s : Supervisor} {id : UInt64} {result : Except SessionError Stats}
    (h : ∀ stats, result = .ok stats → s.statsOf id = stats) (other : UInt64) :
    (s.join id result).statsOf other = s.statsOf other := by
  cases result with
  | error e => rfl
  | ok stats =>
    simp only [statsOf, join, lookup_replace]
    split
    next heq => rw [heq, ← h stats rfl, Option.getD_some, statsOf]
    next => rfl

/-- Results that were known before, in the order of the digitizers: each digitizer gets what is
known under its serial. -/
theorem joinAll_eq {s : Supervisor} {results : List (UInt64 × Except SessionError Stats)}
    {digitizers : List DigitizerSettings}
    (hids : results.map (·.1) = digitizers.map (·.link.serial))
    (hknown : ∀ x ∈ results, ∀ stats, x.2 = .ok stats → s.statsOf x.1 = stats) :
    s.joinAll results digitizers =
      digitizers.map fun d => { d with stats := some (s.statsOf d.link.serial) } := by
  induction results generalizing s digitizers with
  | nil =>
    obtain rfl := List.map_eq_nil_iff.1 hids.symm
    rfl
  | cons x results ih =>
    obtain ⟨id, result⟩ := x
    cases digitizers with
    | nil => cases hids
    | cons d digitizers =>
      obtain ⟨hid, hrest⟩ := List.cons.inj hids
      obtain ⟨hfirst, hothers⟩ := List.forall_mem_cons.1 hknown
      have hsame := statsOf_join hfirst
      have hjoined := ih hrest fun x hx stats hok => (hsame x.1).trans (hothers x hx stats hok)
      simp only [hsame] at hjoined
      obtain rfl : id = d.link.serial := hid
      simp only [joinAll, List.map_cons, hsame, hjoined]

end Supervisor

/-- The record of a run, with the totals of each digitizer under its serial. -/
def Run.recorded (r : Run) (started : Timestamp) (milliseconds : UInt64)
    (stats : UInt64 → Stats) : Run :=
  { r with
    timestamp := some started
    duration := some milliseconds
    digitizers := r.digitizers.map fun d => { d with stats := some (stats d.link.serial) } }

/-! ## All threads together -/

/-- The threads of a run, the writer that they share, and the supervisor. -/
structure Crew (β ω : Type) where
  threads : List (Thread β)
  writer : ω
  supervisor : Supervisor

/-- What may happen next. -/
inductive CrewMove where
  /-- A thread looks at the flag and the clock. -/
  | look (place : Nat) (now : UInt64)
  /-- A thread acts on what it has seen. -/
  | act (place : Nat)
  /-- The oldest report of a thread that has not arrived does. -/
  | deliver (place : Nat) (elapsed : Duration)
  /-- There has been no report for a while. -/
  | tick (elapsed : Duration)

namespace Crew

/-- The threads of sessions that have been opened. -/
def ofSessions (sessions : List (Session β)) (limit : Option RunLimit) (writer : ω) :
    Crew β ω where
  threads := sessions.map fun s => { acquisition := { session := s } }
  writer := writer
  supervisor := { ids := sessions.map (·.id), limit := limit }

variable [Board β] [DataWriter ω]

/-- Make a move, if it is possible. -/
def move (c : Crew β ω) : CrewMove → Crew β ω
  | .look place now =>
    match c.threads[place]? with
    | none => c
    | some t =>
      let seen := some { keepRunning := c.supervisor.keepRunning, now := now }
      { c with threads := c.threads.set place { t with seen := seen } }
  | .act place =>
    match c.threads[place]? with
    | none => c
    | some t =>
      let (t, writer) := t.act c.writer
      { c with threads := c.threads.set place t, writer }
  | .deliver place elapsed =>
    match c.threads[place]? with
    | none => c
    | some t =>
      match t.inFlight with
      | [] => c
      | p :: inFlight =>
        { c with
          threads := c.threads.set place { t with heard := t.heard ++ [p], inFlight }
          supervisor := c.supervisor.observe elapsed p }
  | .tick elapsed => { c with supervisor := c.supervisor.tick elapsed }

def run (c : Crew β ω) (moves : List CrewMove) : Crew β ω :=
  moves.foldl move c

end Crew

/-- All is in order: the threads are faithful, the supervisor knows of them what has arrived, and,
if there is a limit of cycles, it has cleared the flag and the threads have stopped only once there
were enough of them. -/
structure Crew.Sound (ids : List UInt64) (limit : Option RunLimit) (c : Crew β ω) : Prop where
  threads : c.threads.map (·.id) = ids
  watched : c.supervisor.ids = ids
  limited : c.supervisor.limit = limit
  faithful : ∀ t ∈ c.threads, ∃ cycles, t.Faithful cycles
  known : ∀ t ∈ c.threads, c.supervisor.Knows t
  finished : c.supervisor.finished.Nodup ∧ ∀ id ∈ c.supervisor.finished, id ∈ ids
  lasting : ∀ n, limit = some (.cycles n) → ∀ t ∈ c.threads, t.Lasting n
  cleared : ∀ n, limit = some (.cycles n) → c.supervisor.keepRunning = false →
    ∀ t ∈ c.threads, t.Through n

namespace Crew.Sound

variable {ids : List UInt64} {limit : Option RunLimit} {c : Crew β ω}

/-- Looking at the limit clears the flag only if all threads have done enough. -/
theorem look (h : c.Sound ids limit) (elapsed : Duration) :
    Crew.Sound ids limit { c with supervisor := c.supervisor.look elapsed } where
  threads := h.threads
  watched := h.watched
  limited := h.limited
  faithful := h.faithful
  known t ht := ⟨(h.known t ht).stats, (h.known t ht).finished⟩
  finished := h.finished
  lasting := h.lasting
  cleared n hn hflag t ht := by
    replace hflag : (c.supervisor.keepRunning && !c.supervisor.reached elapsed) = false := hflag
    rw [Bool.and_eq_false_iff, Bool.not_eq_false'] at hflag
    obtain hflag | hreached := hflag
    · exact h.cleared n hn hflag t ht
    · unfold Supervisor.reached at hreached
      rw [h.limited, hn, h.watched, List.all_eq_true] at hreached
      have hid : t.id ∈ ids := h.threads ▸ List.mem_map_of_mem ht
      obtain ⟨cycles, hfaithful⟩ := h.faithful t ht
      exact (h.known t ht).through hfaithful (hreached t.id hid)

theorem tick (h : c.Sound ids limit) (elapsed : Duration) :
    Crew.Sound ids limit { c with supervisor := c.supervisor.tick elapsed } := by
  unfold Supervisor.tick
  split
  · exact h.look elapsed
  · exact h

variable {place : Nat} {t : Thread β} (t' : Thread β) (hplace : c.threads[place]? = some t)
  (hid : t'.id = t.id)
include hplace hid

theorem map_id_set : (c.threads.set place t').map (·.id) = c.threads.map (·.id) := by
  obtain ⟨hlt, rfl⟩ := List.getElem?_eq_some_iff.1 hplace
  have hlt' : place < (c.threads.map (·.id)).length := by rwa [List.length_map]
  have hself : (c.threads.map (·.id)).set place (c.threads.map (·.id))[place] = _ :=
    List.set_getElem_self hlt'
  rw [List.getElem_map] at hself
  rw [List.map_set, hid, hself]

omit hid in
/-- A thread is the one that has been put in place, or another one. -/
theorem mem_set_cases (hids : (c.threads.map (·.id)).Nodup) {u : Thread β}
    (hu : u ∈ c.threads.set place t') : u = t' ∨ u ∈ c.threads ∧ u.id ≠ t.id := by
  obtain ⟨k, hk⟩ := List.getElem?_of_mem hu
  rw [List.getElem?_set] at hk
  split at hk
  next =>
    split at hk
    · exact .inl (Option.some.inj hk).symm
    · cases hk
  next hne =>
    refine .inr ⟨List.mem_of_getElem? hk, fun hsame => hne ?_⟩
    obtain ⟨hlt, -⟩ := List.getElem?_eq_some_iff.1 hplace
    refine (List.getElem?_inj (by rwa [List.length_map]) hids).1 ?_
    rw [List.getElem?_map, List.getElem?_map, hk, hplace]
    exact congrArg some hsame.symm

/-- A thread goes on, and nothing new arrives. -/
theorem set (h : c.Sound ids limit) (hheard : t'.heard = t.heard)
    (hfaithful : ∃ cycles, t'.Faithful cycles)
    (hlasting : ∀ n, limit = some (.cycles n) → t'.Lasting n) (writer : ω) :
    Crew.Sound ids limit { c with threads := c.threads.set place t', writer } := by
  have ht : t ∈ c.threads := List.mem_of_getElem? hplace
  refine ⟨(map_id_set t' hplace hid).trans h.threads, h.watched, h.limited, fun u hu => ?_,
    fun u hu => ?_, h.finished, fun n hn u hu => ?_, fun n hn hflag u hu => ?_⟩
  all_goals obtain hu | rfl := List.mem_or_eq_of_mem_set hu
  · exact h.faithful u hu
  · exact hfaithful
  · exact h.known u hu
  · have hknown := h.known t ht
    refine ⟨?_, ?_⟩
    · rw [hid, hheard]
      exact hknown.stats
    · rw [hid, Thread.HasEnded, hheard]
      exact hknown.finished
  · exact h.lasting n hn u hu
  · exact hlasting n hn
  · exact h.cleared n hn hflag u hu
  · exact (h.cleared n hn hflag t ht).deliver (hheard ▸ List.prefix_refl _)

omit hid in
/-- The oldest report of a thread that is in flight arrives and is taken down. -/
theorem deliver (h : c.Sound ids limit) (hids : ids.Nodup) {p : Progress}
    {inFlight : List Progress} (hp : t.inFlight = p :: inFlight) :
    Crew.Sound ids limit
      { c with
        threads := c.threads.set place { t with heard := t.heard ++ [p], inFlight }
        supervisor := c.supervisor.note p } := by
  have ht : t ∈ c.threads := List.mem_of_getElem? hplace
  have hsub : t.heard <+: t.heard ++ [p] := List.prefix_append _ _
  obtain ⟨cycles, hfaithful⟩ := h.faithful t ht
  have hpid : p.id = t.id :=
    hfaithful.id_of_mem (List.mem_append_right _ (hp ▸ List.mem_cons_self))
  have hthreads := map_id_set { t with heard := t.heard ++ [p], inFlight } hplace rfl
  have hset {u : Thread β} := mem_set_cases { t with heard := t.heard ++ [p], inFlight } hplace
    (h.threads ▸ hids) (u := u)
  have hnote : (c.supervisor.note p).ids = c.supervisor.ids ∧
      (c.supervisor.note p).limit = c.supervisor.limit ∧
      (c.supervisor.note p).keepRunning = c.supervisor.keepRunning := by
    rw [Supervisor.note_eq]
    exact ⟨rfl, rfl, rfl⟩
  refine ⟨hthreads.trans h.threads, hnote.1.trans h.watched,
    hnote.2.1.trans h.limited, fun u hu => ?_, fun u hu => ?_,
    ⟨Supervisor.nodup_finished_note h.finished.1 p, fun id hid => ?_⟩, fun n hn u hu => ?_,
    fun n hn hflag u hu => ?_⟩
  · obtain rfl | ⟨hu, -⟩ := hset hu
    · exact ⟨cycles, hfaithful.deliver hp⟩
    · exact h.faithful u hu
  · obtain rfl | ⟨hu, hne⟩ := hset hu
    · exact (h.known t ht).note rfl hpid rfl
    · exact (h.known u hu).note_other (hpid ▸ hne)
  · obtain hid | ⟨-, rfl⟩ := (Supervisor.mem_finished_note _ _ _).1 hid
    · exact h.finished.2 id hid
    · rw [hpid, ← h.threads]
      exact List.mem_map_of_mem ht
  · obtain rfl | ⟨hu, -⟩ := hset hu
    · have hlasting := h.lasting n hn t ht
      refine ⟨fun r hr hstop => (hlasting.seen r hr hstop).deliver hsub, fun hphase => ?_⟩
      have hsent := hlasting.completed hphase
      rw [hfaithful.sent] at hsent
      rw [(hfaithful.deliver hp).sent]
      exact hsent
    · exact h.lasting n hn u hu
  · rw [hnote.2.2] at hflag
    obtain rfl | ⟨hu, -⟩ := hset hu
    · exact (h.cleared n hn hflag t ht).deliver hsub
    · exact h.cleared n hn hflag u hu

end Crew.Sound

namespace Crew

variable [Board β] [DataWriter ω] {ids : List UInt64} {limit : Option RunLimit} {c : Crew β ω}

/-- Every move keeps the invariant. -/
theorem Sound.move (h : c.Sound ids limit) (hids : ids.Nodup) (m : CrewMove) :
    (c.move m).Sound ids limit := by
  cases m with
  | look place now =>
    cases hplace : c.threads[place]? with
    | none => simpa only [Crew.move, hplace] using h
    | some t =>
      have ht := List.mem_of_getElem? hplace
      simp only [Crew.move, hplace]
      refine h.set { t with seen := some ⟨c.supervisor.keepRunning, now⟩ } hplace rfl rfl ?_ ?_
        c.writer
      · obtain ⟨cycles, hfaithful⟩ := h.faithful t ht
        exact ⟨cycles, hfaithful.numbered, hfaithful.count, hfaithful.sent⟩
      · intro n hn
        refine ⟨?_, (h.lasting n hn t ht).completed⟩
        rintro _ ⟨⟩ hstop
        exact h.cleared n hn hstop t ht
  | act place =>
    cases hplace : c.threads[place]? with
    | none => simpa only [Crew.move, hplace] using h
    | some t =>
      have ht := List.mem_of_getElem? hplace
      obtain ⟨cycles, hfaithful⟩ := h.faithful t ht
      simp only [Crew.move, hplace]
      exact h.set _ hplace (t.act_id c.writer) (t.act_heard c.writer) (hfaithful.act c.writer)
        (fun n hn => (h.lasting n hn t ht).act hfaithful c.writer) _
  | deliver place elapsed =>
    cases hplace : c.threads[place]? with
    | none => simpa only [Crew.move, hplace] using h
    | some t =>
      cases hp : t.inFlight with
      | nil => simpa only [Crew.move, hplace, hp] using h
      | cons p inFlight =>
        simp only [Crew.move, hplace, hp]
        exact (h.deliver hplace hids hp).look elapsed
  | tick elapsed => exact h.tick elapsed

theorem Sound.run (h : c.Sound ids limit) (hids : ids.Nodup) (moves : List CrewMove) :
    (c.run moves).Sound ids limit := by
  induction moves generalizing c with
  | nil => exact h
  | cons m moves ih => exact ih (h.move hids m)

omit [Board β] [DataWriter ω] in
/-- In the beginning nothing has been reported. -/
theorem sound_ofSessions {sessions : List (Session β)} (hfresh : ∀ s ∈ sessions, s.stats.cycles = 0)
    (limit : Option RunLimit) (writer : ω) :
    (ofSessions sessions limit writer).Sound (sessions.map (·.id)) limit := by
  have hthread : ∀ t ∈ (ofSessions sessions limit writer).threads,
      ∃ s ∈ sessions, t = { acquisition := { session := s } } := by
    intro t ht
    obtain ⟨s, hs, rfl⟩ := List.mem_map.1 ht
    exact ⟨s, hs, rfl⟩
  refine ⟨?_, rfl, rfl, fun t ht => ?_, fun t ht => ?_, ⟨.nil, nofun⟩, fun n _ t ht => ?_, nofun⟩
  · simp [ofSessions, Function.comp_def, Thread.id]
  all_goals obtain ⟨s, hs, rfl⟩ := hthread t ht
  · exact ⟨[], nofun, hfresh s hs, rfl⟩
  · exact ⟨rfl, nofun, nofun⟩
  · exact ⟨nofun, nofun⟩

omit [Board β] [DataWriter ω] in
/-- The supervisor is done when the ends of all threads have been reported. -/
theorem Sound.isDone_iff (h : c.Sound ids limit) (hids : ids.Nodup) :
    c.supervisor.isDone = true ↔ ∀ t ∈ c.threads, t.HasEnded := by
  have hended : (∀ t ∈ c.threads, t.HasEnded) ↔ ids ⊆ c.supervisor.finished := by
    rw [← h.threads, List.subset_def, List.forall_mem_map]
    exact forall₂_congr fun t ht => (h.known t ht).finished.symm
  have hfinished : List.Subperm c.supervisor.finished ids :=
    List.subperm_of_subset h.finished.1 h.finished.2
  rw [hended, Supervisor.isDone, h.watched, decide_eq_true_iff]
  constructor
  · intro hlength
    exact (hfinished.perm_of_length_le hlength).symm.subset
  · intro hsub
    exact (List.subperm_of_subset hids hsub).length_le

omit [Board β] [DataWriter ω] in
/-- What the supervisor knows in the end are the final totals. -/
theorem Sound.statsOf_eq (h : c.Sound ids limit) {t : Thread β} (ht : t ∈ c.threads)
    (hended : t.HasEnded) : t.acquisition.isFinished = true ∧
      c.supervisor.statsOf t.id = t.acquisition.session.stats := by
  obtain ⟨cycles, hfaithful⟩ := h.faithful t ht
  obtain ⟨hfinished, hheard⟩ := hfaithful.hasEnded_iff.1 hended
  obtain ⟨error, hend⟩ := Thread.farewell_of_finished hfinished
  refine ⟨hfinished, ?_⟩
  rw [Supervisor.statsOf, (h.known t ht).stats, hheard, hend, List.getLast?_concat]
  rfl

omit [Board β] [DataWriter ω] in
/-- In the end nothing new comes of joining the threads. -/
theorem Sound.joinAll_eq (h : c.Sound ids limit) (hended : ∀ t ∈ c.threads, t.HasEnded)
    {digitizers : List DigitizerSettings} (hids : digitizers.map (·.link.serial) = ids) :
    c.supervisor.joinAll (c.threads.map fun t => (t.id, t.acquisition.result)) digitizers =
      digitizers.map fun d => { d with stats := some (c.supervisor.statsOf d.link.serial) } := by
  refine Supervisor.joinAll_eq ?_ ?_
  · rw [hids, ← h.threads, List.map_map]
    rfl
  · intro x hx stats hok
    obtain ⟨t, ht, rfl⟩ := List.mem_map.1 hx
    exact (h.statsOf_eq ht (hended t ht)).2.trans (Acquisition.stats_of_result hok)

/-! ## Main result -/

/-- What holds at any time of the threads of a run with digitizers `ids`. -/
structure Supervised (ids : List UInt64) (limit : Option RunLimit) (c : Crew β ω) : Prop where
  /-- A thread has reported every cycle that it has completed, in order and with the totals after
  it, and then its end, if that has come. -/
  reported : ∀ t ∈ c.threads, ∃ cycles, t.Faithful cycles
  /-- A limit of cycles clears the flag only when each thread is known to have ended or to have
  completed enough of them. -/
  cleared : ∀ n, limit = some (.cycles n) → c.supervisor.keepRunning = false →
    ∀ t ∈ c.threads, t.Through n
  /-- So a thread that has ended without an error has completed enough of them. -/
  completed : ∀ n, limit = some (.cycles n) → ∀ t ∈ c.threads, ∀ stats,
    t.acquisition.isFinished = true → t.acquisition.result = .ok stats →
    n.toNat ≤ t.sent.countP (·.isCycle)
  /-- The supervisor is done exactly when all ends have been reported. -/
  done : c.supervisor.isDone = true ↔ ∀ t ∈ c.threads, t.HasEnded
  /-- Then the record has, for each serial, the final totals of the session with this serial. -/
  recorded : c.supervisor.isDone = true → (∀ t ∈ c.threads, t.acquisition.isFinished = true) ∧
    ∀ (r : Run) (started : Timestamp) (milliseconds : UInt64), r.serials = ids →
      (r.recorded started milliseconds c.supervisor.statsOf).digitizers.map
          (fun d => (d.link.serial, d.stats)) =
        c.threads.map fun t => (t.id, some t.acquisition.session.stats)
  /-- It is the same if the threads are joined in the order of the digitizers, and each result is
  recorded for the digitizer in its place. -/
  joined : c.supervisor.isDone = true → ∀ digitizers : List DigitizerSettings,
    digitizers.map (·.link.serial) = ids →
      c.supervisor.joinAll (c.threads.map fun t => (t.id, t.acquisition.result)) digitizers =
        digitizers.map fun d => { d with stats := some (c.supervisor.statsOf d.link.serial) }

omit [Board β] [DataWriter ω] in
theorem Sound.supervised (h : c.Sound ids limit) (hids : ids.Nodup) : c.Supervised ids limit where
  reported := h.faithful
  cleared := h.cleared
  completed n hn t ht stats hfinished hresult := by
    refine (h.lasting n hn t ht).completed ?_
    unfold Acquisition.isFinished at hfinished
    unfold Acquisition.result at hresult
    cases hphase : t.acquisition.phase with
    | finished error =>
      cases error with
      | none => rfl
      | some e => simp [hphase] at hresult
    | _ => simp [hphase] at hfinished
  done := h.isDone_iff hids
  recorded hdone := by
    have hended := (h.isDone_iff hids).1 hdone
    refine ⟨fun t ht => (h.statsOf_eq ht (hended t ht)).1, fun r started milliseconds hr => ?_⟩
    calc (r.recorded started milliseconds c.supervisor.statsOf).digitizers.map
          (fun d => (d.link.serial, d.stats))
      _ = r.serials.map fun id => (id, some (c.supervisor.statsOf id)) := by
        simp [Run.recorded, Run.serials, Function.comp_def]
      _ = c.threads.map fun t => (t.id, some (c.supervisor.statsOf t.id)) := by
        rw [hr, ← h.threads, List.map_map]
        rfl
      _ = c.threads.map fun t => (t.id, some t.acquisition.session.stats) :=
        List.map_congr_left fun t ht => by rw [(h.statsOf_eq ht (hended t ht)).2]
  joined hdone _ hserials := h.joinAll_eq ((h.isDone_iff hids).1 hdone) hserials

/-- Any number of fresh sessions of distinct digitizers, each in a thread of its own: whatever the
boards and the writer answer, and in whatever order the threads look, act and are heard, what they
report, when they are told to stop and what is recorded of them is as it should be. -/
theorem run_supervised (sessions : List (Session β)) (limit : Option RunLimit) (writer : ω)
    (moves : List CrewMove) (hids : (sessions.map (·.id)).Nodup)
    (hfresh : ∀ s ∈ sessions, s.stats.cycles = 0) :
    ((ofSessions sessions limit writer).run moves).Supervised (sessions.map (·.id)) limit :=
  ((sound_ofSessions hfresh limit writer).run hids moves).supervised hids

end Crew

/-- A session that cannot be closed in the end, and one that fails for good in its first cycle. -/
def twoToFail : List (Session ScriptedBoard) :=
  [readyToIdle, { readyToFail with id := 2 }]

/-- The first cycle of one of them is reported after the other has come to its end. -/
def twoToFailMoves : List CrewMove :=
  [.look 0 1, .act 0, .look 1 1, .look 0 2, .act 1, .act 0, .look 1 3, .act 1, .deliver 1 .zero,
    .look 0 4, .deliver 0 .zero, .act 0, .look 0 5, .act 0, .deliver 0 .zero, .deliver 0 .zero]

/-- The flag is cleared when both have done enough. What has been seen of it before makes for one
more cycle, and both failures are reported. -/
theorem twoToFail_supervised :
    (twoToFail.map (·.id)).Nodup ∧ (∀ s ∈ twoToFail, s.stats.cycles = 0) ∧
    ((Crew.ofSessions twoToFail (some (.cycles 1)) ({} : Totals)).run twoToFailMoves).Supervised
      (twoToFail.map (·.id)) (some (.cycles 1)) ∧
    ((Crew.ofSessions twoToFail (some (.cycles 1)) ({} : Totals)).run
      twoToFailMoves).supervisor.isDone = true ∧
    ((Crew.ofSessions twoToFail (some (.cycles 1)) ({} : Totals)).run
      twoToFailMoves).supervisor.stats.map (fun e => (e.1, e.2.cycles)) = [(1, 2), (2, 0)] := by
  have hids : (twoToFail.map (·.id)).Nodup := by decide +kernel
  have hfresh : ∀ s ∈ twoToFail, s.stats.cycles = 0 := by decide +kernel
  exact ⟨hids, hfresh,
    Crew.run_supervised twoToFail (some (.cycles 1)) ({} : Totals) twoToFailMoves hids hfresh,
    by decide +kernel, by decide +kernel⟩

end PulseDaq
