import PulseDaq.Proofs.Acquisition.Tasks
import PulseDaq.Proofs.Session.Flaky

/-!
# Acquisitions behind a flaky link

Failures of a link that the retries get over leave no trace: whatever is done with a session and its
acquisitions gives the same answers, the same news, the same session and the same writer as without
the link. A request that fails once more often than it is retried ends what it was made for.

* `SessionTask.Unnoticed`: a task that is done as if there were no link.
* `SessionTask.perform_cases`: one task, which is unnoticed or cut off.
* `FlakyBoard.transparent`: any tasks, one after another.
-/

namespace PulseDaq

variable {β ω : Type}

/-! ## The link -/

/-- The acquisition without the link. -/
def Acquisition.direct (a : Acquisition (FlakyBoard β)) : Acquisition β where
  session := { a.session with board := a.session.board.board }
  phase := a.phase

/-- The same acquisition but for the link and the time that its session has waited. -/
def Acquisition.Matches (a : Acquisition (FlakyBoard β)) (b : Acquisition β) : Prop :=
  ∃ waited, b = { a.direct with session := { a.direct.session with waited := waited } }

namespace SessionTask

variable {I : β → Prop} {l₀ : FlakyBoard β} {retries : UInt32}
  {x : Acquisition (FlakyBoard β) × ω} {y : Acquisition (LoggedBoard β) × ω}

/-- All requests got through since the link was in `l₀`. -/
abbrev Linked (I : β → Prop) (l₀ : FlakyBoard β) (retries : UInt32) :
    Acquisition (FlakyBoard β) × ω → Acquisition (LoggedBoard β) × ω → Prop :=
  Twins (FlakyBoard.InStep I l₀ retries) Eq

theorem linked_direct (h : x.1.session.Steady I retries) :
    Linked I x.1.session.board retries x (x.1.direct.logged, x.2) :=
  ⟨⟨⟨_, x.1.session.waited, ⟨h.policy, rfl, h.quiet, .refl _ _⟩, rfl⟩, rfl⟩, rfl⟩

theorem Linked.matches (h : Linked I l₀ retries x y) : x.1.Matches y.1.unlogged := by
  obtain ⟨⟨⟨⟨b, log⟩, waited, ⟨-, hboard, -, -⟩, hsession⟩, -⟩, hphase⟩ := h
  obtain ⟨⟨session, phase⟩, v⟩ := y
  obtain rfl : x.1.session.board.board = b := hboard
  obtain rfl : session = _ := hsession
  obtain rfl : x.1.phase = phase := hphase
  exact ⟨waited, rfl⟩

theorem Linked.served (h : Linked I l₀ retries x y) : FlakyBoard.Served retries.toNat l₀
    y.1.session.board.log.requests x.1.session.board := by
  obtain ⟨⟨⟨l, waited, hstep, hsession⟩, -⟩, -⟩ := h
  replace hsession : y.1.session = _ := hsession
  rw [hsession]
  exact hstep.served

/-! ## Tasks behind the link -/

variable [Board β] [DataWriter ω]

/-- The requests of a task, as the log of the board has them. -/
def requests (x : Acquisition β × ω) (t : SessionTask) : Nat :=
  (t.perform (x.1.logged, x.2)).2.1.session.board.log.requests

/-- Nobody notices that the board of `x` is behind a link: what comes of the task is what comes of
it without the link, and all requests got through. -/
structure Unnoticed (retries : UInt32) (x : Acquisition (FlakyBoard β) × ω) (t : SessionTask) :
    Prop where
  answer : (t.perform x).1 = (t.perform (x.1.direct, x.2)).1
  acquisition : (t.perform x).2.1.Matches (t.perform (x.1.direct, x.2)).2.1
  writer : (t.perform x).2.2 = (t.perform (x.1.direct, x.2)).2.2
  served : FlakyBoard.Served retries.toNat x.1.session.board (t.requests (x.1.direct, x.2))
    (t.perform x).2.1.session.board

variable (hI : QuietBoard I)
include hI

omit [DataWriter ω] in
/-- The board stays quiet when the session is closed, whether or not that succeeds. -/
theorem finish_steady {s : Session (FlakyBoard β)} (h : s.Steady I retries)
    (error : Option SessionError) : (Acquisition.finish s error).1.session.Steady I retries := by
  have hpair := (linked_direct (ω := Unit) (x := ({ session := s }, ())) h).1.1
  unfold Acquisition.finish
  obtain ⟨_, s', t', hs, -, h'⟩ | ⟨e, s', t', hs, -, h'⟩ | ⟨e, s', hs, hX⟩ :=
    (Session.close_simulates (FlakyBoard.twins hI s.board retries)).cases_excused hpair
  · rw [hs]
    exact h'.steady
  · rw [hs]
    exact h'.steady
  · rw [hs]
    exact hX.steady

/-- The same comes of a task, or it is cut off. -/
theorem perform_linked (h : Linked I l₀ retries x y) (t : SessionTask) :
    (t.perform x).1 = (t.perform y).1 ∧ Linked I l₀ retries (t.perform x).2 (t.perform y).2 ∨
      t.CutOff (Session.GivesUp I l₀ retries) x y :=
  perform_twins (FlakyBoard.twins hI l₀ retries) (.refl ω) h t

theorem perform_cases (h : x.1.session.Steady I retries) (t : SessionTask) :
    t.Unnoticed retries x ∨
      t.CutOff (Session.GivesUp I x.1.session.board retries) x (x.1.direct, x.2) := by
  obtain ⟨hanswer, hlinked⟩ | hcut := perform_linked hI (linked_direct h) t
  · have hsame : t.perform (x.1.direct, x.2) = _ := perform_unlogged (x.1.direct.logged, x.2) t
    refine .inl ⟨?_, ?_, ?_, hlinked.served⟩
    · rw [hsame, hanswer]
    · rw [hsame]
      exact hlinked.matches
    · rw [hsame]
      exact hlinked.1.2
  · exact .inr hcut.unlogged

theorem perform_steady (h : x.1.session.Steady I retries) (t : SessionTask) :
    (t.perform x).2.1.session.Steady I retries := by
  obtain ⟨-, hlinked⟩ | hcut := perform_linked hI (linked_direct h) t
  · exact hlinked.1.1.steady
  obtain ⟨a, w⟩ := x
  cases hcut with
  | call hask hX =>
    simp only [perform, hask]
    exact hX.steady
  | @cycle r hcut =>
    show (Acquisition.step r a w).1.1.session.Steady I retries
    generalize (Acquisition.step r a w).1 = result at hcut
    cases hcut with
    | running hX => exact finish_steady hI hX.steady _
    | closing hX => exact hX.steady
    | closingLate hX _ => exact hX.steady

theorem performAll_steady (h : x.1.session.Steady I retries) (tasks : List SessionTask) :
    (performAll tasks x).2.1.session.Steady I retries := by
  induction tasks generalizing x with
  | nil => exact h
  | cons t tasks ih => exact ih (perform_steady hI h t)

/-- If no request fails more often than it is retried, no task is cut off. -/
theorem performAll_linked (hplan : ∀ i, (l₀.plan i).length ≤ retries.toNat)
    (h : Linked I l₀ retries x y) (tasks : List SessionTask) :
    (performAll tasks x).1 = (performAll tasks y).1 ∧
      Linked I l₀ retries (performAll tasks x).2 (performAll tasks y).2 := by
  induction tasks generalizing x y with
  | nil => exact ⟨rfl, h⟩
  | cons t tasks ih =>
    obtain ⟨hanswer, hlinked⟩ | hcut := perform_linked hI h t
    · obtain ⟨hanswers, hlinked⟩ := ih hlinked
      exact ⟨congrArg₂ List.cons hanswer hanswers, hlinked⟩
    · obtain ⟨e, s, hX⟩ := hcut.exists_excused
      obtain ⟨b, -, hgiven⟩ := hX.error
      obtain ⟨k, hk⟩ := hgiven.exceeds
      have := hplan k
      omega

end SessionTask

/-! ## Main result -/

/-- A quiet board behind a flaky link, beside a writer with a log. If no request fails more often
than it is retried, then whatever is done with the session, the answers, the news, the session and
the writer are those without the link. Whatever the plan and whatever came before, a task goes
unnoticed unless one of its requests fails more often than that: then the first such request is
given up with the error of its last try, and cuts the task off. -/
theorem FlakyBoard.transparent [Board β] [DataWriter ω] {I : β → Prop} (hI : QuietBoard I)
    {a : Acquisition (FlakyBoard β)} (ha : I a.session.board.board) {retries : UInt32}
    (hretries : a.session.options.retry.retries = retries) (w : LoggedWriter ω)
    (tasks : List SessionTask) :
    ((∀ i, (a.session.board.plan i).length ≤ retries.toNat) →
      (SessionTask.performAll tasks (a, w)).1 = (SessionTask.performAll tasks (a.direct, w)).1 ∧
      (SessionTask.performAll tasks (a, w)).2.1.Matches
        (SessionTask.performAll tasks (a.direct, w)).2.1 ∧
      (SessionTask.performAll tasks (a, w)).2.2 =
        (SessionTask.performAll tasks (a.direct, w)).2.2) ∧
    ∀ x, (SessionTask.performAll tasks (a, w)).2 = x → ∀ t : SessionTask,
      (t.Unnoticed retries x ∨
        t.CutOff (Session.GivesUp I x.1.session.board retries) x (x.1.direct, x.2)) ∧
      ∀ k < t.requests (x.1.direct, x.2), retries.toNat < (x.1.session.board.plan k).length →
        t.CutOff (Session.GivesUp I x.1.session.board retries) x (x.1.direct, x.2) := by
  have hsteady : a.session.Steady I retries := ⟨hretries, ha⟩
  refine ⟨fun hplan => ?_, ?_⟩
  · obtain ⟨hanswers, hlinked⟩ := SessionTask.performAll_linked hI hplan
      (SessionTask.linked_direct (x := (a, w)) hsteady) tasks
    have hsame : SessionTask.performAll tasks (a.direct, w) = _ :=
      SessionTask.performAll_unlogged (a.direct.logged, w) tasks
    rw [hsame]
    exact ⟨hanswers, hlinked.matches, hlinked.1.2⟩
  · rintro _ rfl t
    have hcases := SessionTask.perform_cases hI
      (SessionTask.performAll_steady (x := (a, w)) hI hsteady tasks) t
    refine ⟨hcases, fun k hk hlong => ?_⟩
    obtain hunnoticed | hcut := hcases
    · have := hunnoticed.served.within k hk
      omega
    · exact hcut

/-- A board with one group, which gets ready after the first question, behind a link with a plan. -/
def oneGroupBehind (plan : Nat → List String) : Acquisition (FlakyBoard ScriptedBoard) where
  session := .ofBoard
    { board := { registers := [((.groupEnableMask, none), 1)], status := [0] }, plan := plan } {}

/-- A writer that has nothing to do yet. -/
def idleWriter : LoggedWriter Totals where
  writer := {}

/-- From the first request to the end, with two questions and a cycle. -/
def oneGroupTasks : List SessionTask :=
  [.call .initialise, .call .prepare, .handOver, .cycle ⟨true, 1⟩, .cycle ⟨true, 2⟩,
    .cycle ⟨true, 3⟩, .cycle Acquisition.stopping]

/-- Every other request fails twice. -/
def hiccups (i : Nat) : List String :=
  if i % 2 = 0 then ["timeout", "reset"] else []

/-- The first question fails four times. -/
def outage (i : Nat) : List String :=
  if i = 6 then ["timeout", "timeout", "timeout", "lost"] else []

/-- The hiccups take ten more tries and change nothing else. The outage cuts the question off. -/
theorem FlakyBoard.transparent_oneGroup :
    (SessionTask.performAll oneGroupTasks (oneGroupBehind hiccups, idleWriter)).1 =
      (SessionTask.performAll oneGroupTasks ((oneGroupBehind hiccups).direct, idleWriter)).1 ∧
    (SessionTask.performAll oneGroupTasks
      (oneGroupBehind hiccups, idleWriter)).2.1.session.board.attempts = 20 ∧
    ∃ x, (SessionTask.performAll (oneGroupTasks.take 3) (oneGroupBehind outage, idleWriter)).2 = x ∧
      (SessionTask.cycle ⟨true, 1⟩).CutOff
        (Session.GivesUp ScriptedBoard.Honest x.1.session.board 3) x (x.1.direct, x.2) := by
  have hhonest (plan : Nat → List String) :
      (oneGroupBehind plan).session.board.board.Honest := by
    intro m _ e he
    cases he
  have hplan (i : Nat) : (hiccups i).length ≤ 3 := by
    unfold hiccups
    split
    · decide
    · decide
  have hiccups_pass := FlakyBoard.transparent ScriptedBoard.quiet (hhonest hiccups) rfl
    idleWriter oneGroupTasks
  have outage_cuts := FlakyBoard.transparent ScriptedBoard.quiet (hhonest outage) rfl
    idleWriter (oneGroupTasks.take 3)
  refine ⟨(hiccups_pass.1 hplan).1, by decide +kernel, _, rfl, ?_⟩
  exact (outage_cuts.2 _ rfl (.cycle ⟨true, 1⟩)).2 0 (by decide +kernel) (by decide +kernel)

end PulseDaq
