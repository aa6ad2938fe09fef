import PulseDaq.Proofs.Acquisition.Logged

/-!
# Tasks of sessions

Operations on a session and steps of its acquisitions, in any order.

* `SessionTask`, `TaskAnswer`: what is done with a session, and what comes of it.
* `SessionTask.perform_twins`: tasks of twins, unless one is cut off (`SessionTask.CutOff`).
* `SessionTask.perform_unlogged`: the log of a board changes nothing.
-/

namespace PulseDaq

section Twins

variable {β β' ω ω' : Type}

/-- What is done with a session. -/
inductive SessionTask where
  /-- One of its operations. -/
  | call (c : SessionCall)
  /-- It is handed over to a new acquisition. -/
  | handOver
  /-- A step of its acquisition. -/
  | cycle (r : Reading)

/-- What comes of a task. -/
inductive TaskAnswer where
  | answered (x : Except SessionError SessionAnswer)
  | proceeded (phase : AcquisitionPhase) (news : List Progress)
  deriving DecidableEq

namespace SessionTask

section Perform

variable [Board β] [DataWriter ω]

def perform : SessionTask → Acquisition β × ω → TaskAnswer × Acquisition β × ω
  | call c, (a, w) =>
    match c.ask (a.session, w) with
    | .ok x (session, w) => (.answered (.ok x), { a with session }, w)
    | .error e (session, w) => (.answered (.error e), { a with session }, w)
  | handOver, (a, w) => (.proceeded .waiting [], { a with phase := .waiting }, w)
  | cycle r, (a, w) =>
    let ((a, news), w) := Acquisition.step r a w
    (.proceeded a.phase news, a, w)

/-- Tasks one after another, with all that comes of them. -/
def performAll : List SessionTask → Acquisition β × ω → List TaskAnswer × Acquisition β × ω
  | [], x => ([], x)
  | t :: tasks, x =>
    let (answer, x) := t.perform x
    let (answers, x) := performAll tasks x
    (answer :: answers, x)

end Perform

/-! ## Twins -/

variable {R : SessionOptions → β × Duration → β' × Duration → Prop} {W : ω → ω' → Prop}
  {X : SessionError → Session β → Prop}

/-- Acquisitions of twins, in the same phase and beside related writers. -/
def Twins (R : SessionOptions → β × Duration → β' × Duration → Prop) (W : ω → ω' → Prop)
    (x : Acquisition β × ω) (y : Acquisition β' × ω') : Prop :=
  Session.TwinPairs R W (x.1.session, x.2) (y.1.session, y.2) ∧ x.1.phase = y.1.phase

variable [Board β] [Board β'] [DataWriter ω] [DataWriter ω']

/-- A task has come to its end by an excused failure. -/
inductive CutOff (X : SessionError → Session β → Prop) (x : Acquisition β × ω)
    (y : Acquisition β' × ω') : SessionTask → Prop
  | call {c : SessionCall} {e : SessionError} {s : Session β} {w : ω}
    (hask : c.ask (x.1.session, x.2) = .error e (s, w)) (h : X e s) : CutOff X x y (.call c)
  | cycle {r : Reading}
    (h : Acquisition.CutOff X (Acquisition.step r y.1 y.2).1.1.phase
      (Acquisition.step r x.1 x.2).1) : CutOff X x y (.cycle r)

theorem CutOff.exists_excused {x : Acquisition β × ω} {y : Acquisition β' × ω'} {t : SessionTask}
    (h : t.CutOff X x y) : ∃ e s, X e s := by
  cases h with
  | call _ h => exact ⟨_, _, h⟩
  | cycle h => exact h.exists_excused

variable (hB : TwinBoards β β' R X) (hW : TwinWriters ω ω' W)
include hB hW

/-- One task: the same comes of it, or it is cut off. -/
theorem perform_twins {x : Acquisition β × ω} {y : Acquisition β' × ω'} (h : Twins R W x y)
    (t : SessionTask) :
    (t.perform x).1 = (t.perform y).1 ∧ Twins R W (t.perform x).2 (t.perform y).2 ∨
      t.CutOff X x y := by
  obtain ⟨a, w⟩ := x
  obtain ⟨b, v⟩ := y
  obtain ⟨hpair, hphase⟩ := h
  cases t with
  | call c =>
    obtain ⟨x, s', t', hs, ht, h'⟩ | ⟨e, s', t', hs, ht, h'⟩ | ⟨e, s', hs, hX⟩ :=
      (c.ask_simulates hB hW).cases_excused hpair
    · refine .inl ?_
      simp only [perform, hs, ht]
      exact ⟨trivial, h', hphase⟩
    · refine .inl ?_
      simp only [perform, hs, ht]
      exact ⟨trivial, h', hphase⟩
    · exact .inr (.call hs hX)
  | handOver => exact .inl ⟨rfl, hpair, rfl⟩
  | cycle r =>
    obtain ⟨hpair, hphase, hnews⟩ | hcut := Acquisition.step_twins hB hW hpair hphase r
    · exact .inl ⟨congrArg₂ TaskAnswer.proceeded hphase hnews, hpair, hphase⟩
    · exact .inr (.cycle hcut)

end SessionTask

end Twins

/-! ## Without the log -/

variable {β ω : Type}

/-- The acquisition with an empty log. -/
def Acquisition.logged (a : Acquisition β) : Acquisition (LoggedBoard β) where
  session := a.session.logged
  phase := a.phase

/-- The acquisition behind the log. -/
def Acquisition.unlogged (a : Acquisition (LoggedBoard β)) : Acquisition β where
  session := a.session.forget
  phase := a.phase

namespace SessionTask

theorem twins_unlogged_iff {x : Acquisition (LoggedBoard β) × ω} {y : Acquisition β × ω} :
    Twins LoggedBoard.Behind Eq x y ↔ (x.1.unlogged, x.2) = y := by
  obtain ⟨⟨session, phase⟩, v⟩ := y
  constructor
  · rintro ⟨⟨⟨_, _, ⟨rfl, rfl⟩, hsession⟩, hwriter⟩, hphase⟩
    obtain rfl : session = _ := hsession
    obtain rfl : x.2 = v := hwriter
    obtain rfl : x.1.phase = phase := hphase
    rfl
  · rintro h
    cases h
    exact ⟨⟨⟨_, _, ⟨rfl, rfl⟩, rfl⟩, rfl⟩, rfl⟩

variable [Board β] [DataWriter ω]

/-- The log changes nothing about a task. -/
theorem perform_unlogged (x : Acquisition (LoggedBoard β) × ω) (t : SessionTask) :
    t.perform (x.1.unlogged, x.2) =
      ((t.perform x).1, (t.perform x).2.1.unlogged, (t.perform x).2.2) := by
  obtain ⟨hanswer, htwins⟩ | hcut := perform_twins (LoggedBoard.twins β) (.refl ω)
    (twins_unlogged_iff.2 (rfl : (x.1.unlogged, x.2) = _)) t
  · exact Prod.ext hanswer.symm (twins_unlogged_iff.1 htwins).symm
  · obtain ⟨_, _, hnone⟩ := hcut.exists_excused
    exact hnone.elim

/-- The log changes nothing about tasks. -/
theorem performAll_unlogged (x : Acquisition (LoggedBoard β) × ω) (tasks : List SessionTask) :
    performAll tasks (x.1.unlogged, x.2) =
      ((performAll tasks x).1, (performAll tasks x).2.1.unlogged, (performAll tasks x).2.2) := by
  induction tasks generalizing x with
  | nil => rfl
  | cons t tasks ih =>
    unfold performAll
    rw [perform_unlogged]
    dsimp only
    rw [ih]

/-- The twin of a task that is cut off may as well be without a log. -/
theorem CutOff.unlogged {β' : Type} [Board β'] {X : SessionError → Session β' → Prop}
    {x : Acquisition β' × ω} {y : Acquisition (LoggedBoard β) × ω} {t : SessionTask}
    (h : t.CutOff X x y) : t.CutOff X x (y.1.unlogged, y.2) := by
  cases h with
  | call hask h => exact .call hask h
  | @cycle r h =>
    have hsame := congrArg Prod.fst (perform_unlogged y (.cycle r))
    have hphase : (Acquisition.step r y.1.unlogged y.2).1.1.phase =
        (Acquisition.step r y.1 y.2).1.1.phase := (TaskAnswer.proceeded.inj hsame).1
    refine .cycle ?_
    dsimp only
    rw [hphase]
    exact h

end SessionTask

end PulseDaq
