import Mathlib.Data.List.Forall2
import PulseDaq.Command.Save
import PulseDaq.Proofs.Acquisition.Supervision

/-!
# The acquisitions of a run

The steps of a run are moves of its threads in one of their many orders: first everyone whose last
step is over looks, then one after another what they have to tell is heard and they act. So whatever
holds of threads under a supervisor in any order holds of a run.

* `Opening.openAfter_keeps`: what is opened are fresh sessions, one for each digitizer.
* `Save.Mirrors`: the threads are where the workers of the run are. A step of the run keeps this
  (`Save.Mirrors.step`).
* `Save.goes_supervised`: the main result.
-/

namespace PulseDaq

/-! ## Opening -/

namespace Run

theorem firstRepeated_eq_none_iff (seen l : List UInt64) :
    firstRepeated seen l = none ↔ l.Nodup ∧ ∀ n ∈ l, n ∉ seen := by
  induction l generalizing seen with
  | nil => simp [firstRepeated]
  | cons n l ih =>
    unfold firstRepeated
    split
    next hseen =>
      rw [List.contains_iff_mem] at hseen
      exact iff_of_false nofun fun h => h.2 n List.mem_cons_self hseen
    next hseen =>
      rw [List.contains_iff_mem] at hseen
      rw [ih, List.nodup_cons, List.forall_mem_cons]
      constructor
      · rintro ⟨hnodup, hnot⟩
        exact ⟨⟨fun hn => hnot n hn List.mem_cons_self, hnodup⟩, hseen,
          fun m hm hmem => hnot m hm (List.mem_cons_of_mem _ hmem)⟩
      · rintro ⟨⟨hn, hnodup⟩, -, hnot⟩
        refine ⟨hnodup, fun m hm hmem => ?_⟩
        obtain rfl | hmem := List.mem_cons.1 hmem
        · exact hn hm
        · exact hnot m hm hmem

/-- No serial is declared again exactly if all are distinct. -/
theorem duplicateSerial_eq_none_iff (r : Run) : r.duplicateSerial = none ↔ r.serials.Nodup := by
  simp [duplicateSerial, firstRepeated_eq_none_iff]

end Run

namespace Opening

variable {β ω : Type} [Board β] [DataWriter ω] {P : Session β → Prop}

/-- Opening a session does not touch its name and its totals. -/
theorem openOne_timeless (hP : Session.Timeless P) (settings : List Setting) :
    Preserves (fun x : Session β × ω => P x.1) (openOne settings) :=
  .bind (Session.alone_triple (hP.lasting.configure settings)) fun _ =>
    .bind hP.lasting.initialise fun _ =>
      Session.alone_triple (hP.lasting.prepare (Preserves.anything _))

theorem openAfter_keeps {opened sessions : List (Session β)}
    {rest : List (Session β × List Setting)} {w w' : ω}
    (h : openAfter opened rest w = .ok sessions w') : ∃ more, sessions = opened ++ more ∧
      more.map (fun s => (s.id, s.stats)) = rest.map fun x => (x.1.id, x.1.stats) := by
  induction rest generalizing opened w with
  | nil =>
    obtain ⟨rfl, -⟩ := EStateM.Result.ok.inj h
    exact ⟨[], (List.append_nil _).symm, rfl⟩
  | cons x rest ih =>
    obtain ⟨s, settings⟩ := x
    unfold openAfter at h
    cases hrun : openOne settings (s, w) with
    | error e y => simp [hrun] at h
    | ok _ y =>
      rw [hrun] at h
      obtain ⟨more, rfl, hmore⟩ := ih h
      have hs := (openOne_timeless (P := fun s' : Session β => (s'.id, s'.stats) = (s.id, s.stats))
        (fun _ _ _ _ _ _ _ h => h) settings).ok rfl hrun
      exact ⟨y.1 :: more, List.append_assoc _ _ _, congrArg₂ List.cons hs hmore⟩

end Opening

/-! ## Workers and threads -/

/-- A thread that is where a worker is, and what it has seen. -/
structure Thread.Mirrors (seen : Option Reading) (t : Thread SimulatedBoard) (w : Worker) :
    Prop where
  acquisition : t.acquisition = w.acquisition
  inFlight : t.inFlight = w.news
  seen : t.seen = seen

namespace Crew

variable {β ω : Type} [Board β] [DataWriter ω]

/-- Some moves lead from one to the other. -/
def Reaches (c c' : Crew β ω) : Prop :=
  ∃ moves, c.run moves = c'

theorem Reaches.trans {c₁ c₂ c₃ : Crew β ω} (h : c₁.Reaches c₂) (h' : c₂.Reaches c₃) :
    c₁.Reaches c₃ := by
  obtain ⟨moves, rfl⟩ := h
  obtain ⟨more, rfl⟩ := h'
  exact ⟨moves ++ more, List.foldl_append⟩

section Place

variable {c : Crew β ω} {front back : List (Thread β)} {t : Thread β}
  (h : c.threads = front ++ t :: back)
include h

theorem reaches_look (now : UInt64) : c.Reaches { c with
    threads := front ++ { t with seen := some ⟨c.supervisor.keepRunning, now⟩ } :: back } := by
  refine ⟨[.look front.length now], ?_⟩
  simp [run, move, h]

theorem reaches_act : c.Reaches { c with
    threads := front ++ (t.act c.writer).1 :: back, writer := (t.act c.writer).2 } := by
  refine ⟨[.act front.length], ?_⟩
  simp [run, move, h]

/-- All that a thread has in flight is heard. -/
theorem reaches_hear (elapsed : Duration) : c.Reaches { c with
    threads := front ++ { t with heard := t.heard ++ t.inFlight, inFlight := [] } :: back
    supervisor := t.inFlight.foldl (fun v p => v.observe elapsed p) c.supervisor } := by
  obtain ⟨acquisition, seen, heard, inFlight⟩ := t
  induction inFlight generalizing c heard with
  | nil =>
    refine ⟨[], ?_⟩
    simp [run, ← h]
  | cons p inFlight ih =>
    have hfirst : c.run [.deliver front.length elapsed] = { c with
        threads := front ++ ⟨acquisition, seen, heard ++ [p], inFlight⟩ :: back
        supervisor := c.supervisor.observe elapsed p } := by
      simp [run, move, h]
    refine Reaches.trans ⟨_, hfirst⟩ ?_
    have hrest := ih (c := { c with
      threads := front ++ ⟨acquisition, seen, heard ++ [p], inFlight⟩ :: back
      supervisor := c.supervisor.observe elapsed p }) (heard ++ [p]) rfl
    simpa using hrest

end Place

variable {c : Crew SimulatedBoard RunWriter} {front back : List (Thread SimulatedBoard)}
  {workers : List Worker}

/-- Everyone whose last step is over looks. -/
theorem exists_looks (now : Duration) (time : UInt64)
    (hmirrors : List.Forall₂ (Thread.Mirrors none) back workers) (h : c.threads = front ++ back) :
    ∃ seen, c.Reaches { c with threads := front ++ seen } ∧
      List.Forall₂ (fun t w => t.Mirrors
        (if w.isDue now then some ⟨c.supervisor.keepRunning, time⟩ else none) w) seen workers := by
  induction hmirrors generalizing c front with
  | nil => exact ⟨[], ⟨[], by simp [run, ← h]⟩, .nil⟩
  | @cons t w back workers hmirror _ ih =>
    by_cases hdue : w.isDue now = true
    · have hlook := reaches_look h time
      obtain ⟨seen, hreaches, hseen⟩ := ih (c := { c with threads :=
        front ++ { t with seen := some ⟨c.supervisor.keepRunning, time⟩ } :: back })
        (List.append_cons front _ back)
      refine ⟨_ :: seen, List.append_cons front _ seen ▸ hlook.trans hreaches, .cons ?_ hseen⟩
      rw [if_pos hdue]
      exact ⟨hmirror.acquisition, hmirror.inFlight, rfl⟩
    · obtain ⟨seen, hreaches, hseen⟩ := ih (h.trans (List.append_cons front t back))
      refine ⟨t :: seen, List.append_cons front t seen ▸ hreaches, .cons ?_ hseen⟩
      rw [if_neg hdue]
      exact hmirror

/-- Someone whose last step is over is heard and acts. -/
theorem exists_act {t : Thread SimulatedBoard} {w : Worker} (r : Reading) (now : Duration)
    (hmirror : t.Mirrors (if w.isDue now then some r else none) w)
    (h : c.threads = front ++ t :: back) :
    ∃ t' : Thread SimulatedBoard, t'.Mirrors none (w.step r now c.writer).1 ∧ c.Reaches
      { threads := front ++ t' :: back
        writer := (w.step r now c.writer).2
        supervisor := (if w.isDue now then w.news else []).foldl (fun v p => v.observe now p)
          c.supervisor } := by
  by_cases hdue : w.isDue now = true
  · rw [if_pos hdue] at hmirror ⊢
    have hheard := reaches_hear h now
    have hacted := reaches_act (c := { c with
      threads := front ++ { t with heard := t.heard ++ t.inFlight, inFlight := [] } :: back
      supervisor := t.inFlight.foldl (fun v p => v.observe now p) c.supervisor }) rfl
    obtain ⟨acquisition, seen, heard, inFlight⟩ := t
    obtain ⟨rfl, rfl, rfl⟩ := hmirror
    have hstep : w.step r now c.writer = _ := if_pos hdue
    rw [hstep]
    exact ⟨_, ⟨rfl, rfl, rfl⟩, hheard.trans hacted⟩
  · rw [if_neg hdue] at hmirror ⊢
    have hstep : w.step r now c.writer = (w, c.writer) := if_neg hdue
    rw [hstep]
    refine ⟨t, hmirror, [], ?_⟩
    rw [← h]
    rfl

/-- Then one after another is heard and acts. -/
theorem exists_acts (r : Reading) (now : Duration)
    (hmirrors : List.Forall₂ (fun t w => t.Mirrors (if w.isDue now then some r else none) w) back
      workers) (h : c.threads = front ++ back) :
    ∃ left, List.Forall₂ (Thread.Mirrors none) left
        (workers.mapM (Worker.step r now) c.writer).1 ∧ c.Reaches
      { threads := front ++ left
        writer := (workers.mapM (Worker.step r now) c.writer).2
        supervisor := ((workers.filter (·.isDue now)).flatMap (·.news)).foldl
          (fun v p => v.observe now p) c.supervisor } := by
  induction hmirrors generalizing c front with
  | nil =>
    refine ⟨[], .nil, [], ?_⟩
    rw [← h]
    rfl
  | @cons t w back workers hmirror _ ih =>
    obtain ⟨t', hmirror', hreaches⟩ := exists_act r now hmirror h
    obtain ⟨left, hleft, hrest⟩ := ih
      (c := ⟨front ++ t' :: back, (w.step r now c.writer).2,
        (if w.isDue now then w.news else []).foldl (fun v p => v.observe now p) c.supervisor⟩)
      (List.append_cons front t' back)
    rw [← List.append_cons] at hrest
    have hmapM : (w :: workers).mapM (Worker.step r now) c.writer =
        ((w.step r now c.writer).1 ::
            (workers.mapM (Worker.step r now) (w.step r now c.writer).2).1,
          (workers.mapM (Worker.step r now) (w.step r now c.writer).2).2) := by
      rw [List.mapM_cons]
      rfl
    have htold : ((w :: workers).filter (·.isDue now)).flatMap (·.news) =
        (if w.isDue now then w.news else []) ++
          (workers.filter (·.isDue now)).flatMap (·.news) := by
      rw [List.filter_cons]
      split
      · rfl
      · rfl
    rw [hmapM, htold, List.foldl_append]
    exact ⟨t' :: left, .cons hmirror' hleft, hreaches.trans hrest⟩

end Crew

/-! ## Main result -/

namespace Save

/-- The threads are where the workers of the run are, beside the same writer and supervisor, and
nobody has looked yet. -/
structure Mirrors (s : Save) (c : Crew SimulatedBoard RunWriter) : Prop where
  threads : List.Forall₂ (Thread.Mirrors none) c.threads s.workers
  writer : c.writer = s.writer
  supervisor : c.supervisor = s.supervisor

/-- A step of the run is some moves of the threads. -/
theorem Mirrors.step {s : Save} {c : Crew SimulatedBoard RunWriter} (h : s.Mirrors c)
    (now : Duration) : ∃ c', c.Reaches c' ∧ (s.step now).Mirrors c' := by
  obtain ⟨threads, writer, supervisor⟩ := c
  obtain ⟨hthreads, rfl, rfl⟩ := h
  have hticked : Crew.Reaches ⟨threads, s.writer, s.supervisor⟩
      ⟨threads, s.writer, s.supervisor.tick now⟩ := ⟨[.tick now], rfl⟩
  obtain ⟨seen, hlooked, hseen⟩ := Crew.exists_looks
    (c := ⟨threads, s.writer, s.supervisor.tick now⟩) now (UInt64.ofNat now.milliseconds) hthreads
    (List.nil_append threads).symm
  obtain ⟨left, hleft, hacted⟩ := Crew.exists_acts (c := ⟨seen, s.writer, s.supervisor.tick now⟩)
    _ now hseen (List.nil_append seen).symm
  exact ⟨_, (hticked.trans hlooked).trans hacted, hleft, rfl, rfl⟩

/-- What is made of the acquisitions of threads is made of those of the workers. -/
theorem Mirrors.map_eq {α : Type} {s : Save} {c : Crew SimulatedBoard RunWriter} (h : s.Mirrors c)
    (f : Acquisition SimulatedBoard → α) :
    c.threads.map (fun t => f t.acquisition) = s.workers.map fun w => f w.acquisition := by
  rw [← List.forall₂_eq_eq_eq, List.forall₂_map_left_iff, List.forall₂_map_right_iff]
  exact h.threads.imp fun t w hmirror => by rw [hmirror.acquisition]

/-- What a run may come to: it takes steps, at whatever times, and its writer may be exchanged for
another one. -/
inductive Goes (s₀ : Save) : Save → Prop
  | start : Goes s₀ s₀
  | step {s : Save} (h : Goes s₀ s) (now : Duration) : Goes s₀ (s.step now)
  | exchange {s : Save} (h : Goes s₀ s) (writer : RunWriter) : Goes s₀ { s with writer }

variable {r : Run} {runFile : String} {fs : FileSystem} {started : Timestamp}
  {noise : Simulation → Nat → Nat} {s₀ s : Save}

theorem session_fresh (r : Run) (noise : Simulation → Nat → Nat) (d : DigitizerSettings) :
    (session r noise d).1.id = d.link.serial ∧ (session r noise d).1.stats = {} := by
  obtain ⟨⟨simulation⟩, settings, bufferEvents, stats⟩ := d
  exact ⟨rfl, rfl⟩

/-- A run starts with one fresh session for each of its digitizers. -/
theorem openRun_mirrors (h : openRun r runFile fs started noise = .ok s₀) :
    s₀.run = r ∧ ∃ c, c.Sound r.serials r.limit ∧ s₀.Mirrors c := by
  unfold openRun at h
  cases hwriter : RunWriter.ofRun r started.runId fs with
  | error e fs => simp [hwriter] at h
  | ok writer fs =>
    cases hopen : Opening.openAll (r.digitizers.map (session r noise)) writer with
    | error failure writer => simp [hwriter, hopen] at h
    | ok sessions writer' =>
      simp only [hwriter, hopen, Except.ok.injEq] at h
      subst h
      obtain ⟨_, rfl, hkept⟩ := Opening.openAfter_keeps hopen
      rw [List.map_map] at hkept
      have hids : sessions.map (·.id) = r.serials := by
        have hfst := congrArg (List.map Prod.fst) hkept
        rw [List.map_map, List.map_map] at hfst
        exact hfst.trans (List.map_congr_left fun d _ => (session_fresh r noise d).1)
      have hfresh : ∀ s ∈ sessions, s.stats.cycles = 0 := by
        intro s hs
        have hmem : (s.id, s.stats) ∈ sessions.map fun s => (s.id, s.stats) :=
          List.mem_map_of_mem hs
        rw [hkept] at hmem
        obtain ⟨d, -, hd⟩ := List.mem_map.1 hmem
        have hstats : s.stats = {} :=
          (congrArg Prod.snd hd).symm.trans (session_fresh r noise d).2
        rw [hstats]
      refine ⟨rfl, _, hids ▸ Crew.sound_ofSessions hfresh r.limit writer', ?_, rfl, rfl⟩
      simp only [Crew.ofSessions, List.forall₂_map_left_iff, List.forall₂_map_right_iff,
        List.forall₂_same]
      exact fun s _ => ⟨rfl, rfl, rfl⟩

/-- Whatever a run comes to, it is where some threads with all in order are. -/
theorem Goes.sound (h : s₀.Goes s) {ids : List UInt64} (hids : ids.Nodup) {limit : Option RunLimit}
    (h₀ : ∃ c, c.Sound ids limit ∧ s₀.Mirrors c) :
    s.run = s₀.run ∧ ∃ c, c.Sound ids limit ∧ s.Mirrors c := by
  induction h with
  | start => exact ⟨rfl, h₀⟩
  | step h now ih =>
    obtain ⟨hrun, c, hsound, hmirrors⟩ := ih
    obtain ⟨_, ⟨moves, rfl⟩, hstep⟩ := hmirrors.step now
    exact ⟨hrun, _, hsound.run hids moves, hstep⟩
  | exchange h writer ih =>
    obtain ⟨hrun, c, hsound, hmirrors⟩ := ih
    exact ⟨hrun, { c with writer },
      ⟨hsound.threads, hsound.watched, hsound.limited, hsound.faithful, hsound.known,
        hsound.finished, hsound.lasting, hsound.cleared⟩,
      hmirrors.threads, rfl, hmirrors.supervisor⟩

/-- A run that declares no serial twice, at any time: its workers and its supervisor are those of
threads that report, are told to stop and are recorded as they should be. Once it is over, its
record, in which results and digitizers are matched by their places, is the one in which they are
matched by their serials, and has the final totals of each session. -/
theorem goes_supervised (hopen : openRun r runFile fs started noise = .ok s₀)
    (hdistinct : r.duplicateSerial = none) (hgoes : s₀.Goes s) :
    (∃ c, c.Supervised r.serials r.limit ∧ s.Mirrors c) ∧
      (s.isRunning = false → ∀ milliseconds,
        s.record milliseconds = s.run.recorded s.started milliseconds s.supervisor.statsOf ∧
          (s.record milliseconds).digitizers.map (fun d => (d.link.serial, d.stats)) =
            s.workers.map fun w =>
              (w.acquisition.session.id, some w.acquisition.session.stats)) := by
  have hids := r.duplicateSerial_eq_none_iff.1 hdistinct
  obtain ⟨hdeclared, hsound₀⟩ := openRun_mirrors hopen
  obtain ⟨hrun, c, hsound, hmirrors⟩ := hgoes.sound hids hsound₀
  have hsupervised := hsound.supervised hids
  refine ⟨⟨c, hsupervised, hmirrors⟩, fun hover milliseconds => ?_⟩
  have hdone : c.supervisor.isDone = true := by
    rw [hmirrors.supervisor]
    simpa [isRunning] using hover
  have hserials : s.run.serials = r.serials := by rw [hrun, hdeclared]
  have hrecord : s.record milliseconds =
      s.run.recorded s.started milliseconds s.supervisor.statsOf := by
    have hjoined := hsupervised.joined hdone _ hserials
    have hresults := hmirrors.map_eq fun a => (a.session.id, a.result)
    rw [hmirrors.supervisor] at hjoined
    rw [record, results, ← hresults]
    exact congrArg (s.run.record s.started milliseconds) hjoined
  have hrecorded := (hsupervised.recorded hdone).2 s.run s.started milliseconds hserials
  have htotals := hmirrors.map_eq fun a => (a.session.id, some a.session.stats)
  rw [hmirrors.supervisor] at hrecorded
  exact ⟨hrecord, hrecord ▸ hrecorded.trans htotals⟩

end Save

end PulseDaq
