import PulseDaq.Acquisition.Worker
import PulseDaq.Proofs.Session.Logged

/-!
# Acquisitions with logs

Acquisitions of twin sessions go through the same phases, with the same news, and stay twins
(`Acquisition.run_twins`). So the logs of a board and of a writer change nothing about an
acquisition (`Acquisition.run_forget`).

Where some failures of the board are excused, one of them ends the acquisition
(`Acquisition.step_twins`, `Acquisition.CutOff`).
-/

namespace PulseDaq

variable {β β' ω ω' : Type} {R : SessionOptions → β × Duration → β' × Duration → Prop}
  {W : ω → ω' → Prop} {X : SessionError → Session β → Prop}

namespace Acquisition

/-- The same phase and the same news, the sessions and the writers being related. -/
structure Twins (R : SessionOptions → β × Duration → β' × Duration → Prop) (W : ω → ω' → Prop)
    (x : (Acquisition β × List Progress) × ω) (y : (Acquisition β' × List Progress) × ω') :
    Prop where
  pair : Session.TwinPairs R W (x.1.1.session, x.2) (y.1.1.session, y.2)
  phase : x.1.1.phase = y.1.1.phase
  news : x.1.2 = y.1.2

/-- An excused failure has ended an acquisition whose twin is in a `phase`. -/
inductive CutOff [Board β] (X : SessionError → Session β → Prop) (phase : AcquisitionPhase) :
    Acquisition β × List Progress → Prop
  /-- It was a failure to wait or to read, so the session was closed. -/
  | running {e : SessionError} {s : Session β} (h : X e s) : CutOff X phase (finish s (some e))
  /-- It was a failure to close. -/
  | closing {e : SessionError} {s : Session β} (h : X e s) :
    CutOff X phase ({ session := s, phase := .finished (some e) },
      [.finished s.id s.stats (some e)])
  /-- It was a failure to close after another failure, which the twin had as well. -/
  | closingLate {e e' : SessionError} {s : Session β} (h : X e s)
    (hphase : phase = .finished (some e')) :
    CutOff X phase ({ session := s, phase := .finished (some e') },
      [.finished s.id s.stats (some e')])

theorem CutOff.exists_excused [Board β] {phase : AcquisitionPhase}
    {x : Acquisition β × List Progress} (h : CutOff X phase x) : ∃ e s, X e s := by
  cases h with
  | running h => exact ⟨_, _, h⟩
  | closing h => exact ⟨_, _, h⟩
  | closingLate h _ => exact ⟨_, _, h⟩

/-- The step of a twin: to twins, or to an end by an excused failure. -/
def StepsAlike [Board β] (R : SessionOptions → β × Duration → β' × Duration → Prop)
    (W : ω → ω' → Prop) (X : SessionError → Session β → Prop)
    (x : (Acquisition β × List Progress) × ω) (y : (Acquisition β' × List Progress) × ω') : Prop :=
  Twins R W x y ∨ CutOff X y.1.1.phase x.1

/-- No failure is excused. -/
theorem StepsAlike.twins [Board β] {x : (Acquisition β × List Progress) × ω}
    {y : (Acquisition β' × List Progress) × ω'} (h : StepsAlike R W (fun _ _ => False) x y) :
    Twins R W x y := by
  obtain h | h := h
  · exact h
  · obtain ⟨_, _, hnone⟩ := h.exists_excused
    exact hnone.elim

variable [Board β] [Board β'] (hB : TwinBoards β β' R X)
include hB

theorem finish_twins {s : Session β} {t : Session β'} {w : ω} {v : ω'}
    (h : Session.TwinPairs R W (s, w) (t, v)) (error : Option SessionError) :
    StepsAlike R W X (finish s error, w) (finish t error, v) := by
  have hphase : ∃ error', (finish t error).1.phase = .finished error' ∧
      ∀ e, error = some e → error' = some e := by
    unfold finish
    cases t.close with
    | ok _ t' => exact ⟨error, rfl, fun _ h => h⟩
    | error e' t' =>
      refine ⟨error <|> some e', rfl, ?_⟩
      rintro e rfl
      rfl
  obtain ⟨error', hphase, herror⟩ := hphase
  obtain ⟨_, s', t', hs, ht, h'⟩ | ⟨e, s', t', hs, ht, h'⟩ | ⟨e, s', hs, hX⟩ :=
    (Session.close_simulates hB).cases_excused h.1
  iterate 2
    unfold finish
    rw [hs, ht]
    obtain ⟨board, waited, -, rfl⟩ := id h'
    exact .inl ⟨⟨h', h.2⟩, rfl, rfl⟩
  · refine .inr ?_
    have hfinish : finish s error = ({ session := s', phase := .finished (error <|> some e) },
        [.finished s'.id s'.stats (error <|> some e)]) := by
      unfold finish
      rw [hs]
    show CutOff X (finish t error).1.phase (finish s error)
    rw [hfinish, hphase]
    cases error with
    | none => exact .closing hX
    | some e₀ => exact .closingLate hX (congrArg _ (herror e₀ rfl))

theorem stepWaiting_twins {s : Session β} {t : Session β'} {w : ω} {v : ω'}
    (h : Session.TwinPairs R W (s, w) (t, v)) (r : Reading) :
    StepsAlike R W X (stepWaiting r s, w) (stepWaiting r t, v) := by
  unfold stepWaiting
  obtain ⟨started, s', t', hs, ht, h'⟩ | ⟨e, s', t', hs, ht, h'⟩ | ⟨e, s', hs, hX⟩ :=
    (Session.poll_simulates hB).cases_excused h.1
  · rw [hs, ht]
    cases started with
    | true => exact .inl ⟨⟨h', h.2⟩, rfl, rfl⟩
    | false =>
      obtain ⟨board, waited, hR, rfl⟩ := id h'
      dsimp only
      split
      · exact .inl ⟨⟨⟨board, _, hB.wait s'.options.readyPoll hR, rfl⟩, h.2⟩, rfl, rfl⟩
      · exact finish_twins hB ⟨h', h.2⟩ none
  · rw [hs, ht]
    exact finish_twins hB ⟨h', h.2⟩ (some e)
  · rw [hs]
    exact .inr (.running hX)

variable [DataWriter ω] [DataWriter ω'] (hW : TwinWriters ω ω' W)
include hW

theorem stepCycling_twins {s : Session β} {t : Session β'} {w : ω} {v : ω'}
    (h : Session.TwinPairs R W (s, w) (t, v)) (r : Reading) (last : Option UInt64) :
    StepsAlike R W X (stepCycling r last s w) (stepCycling r last t v) := by
  unfold stepCycling
  dsimp only
  split
  · obtain ⟨cycle, ⟨s', w'⟩, ⟨t', v'⟩, hs, ht, h'⟩ | ⟨e, ⟨s', w'⟩, ⟨t', v'⟩, hs, ht, h'⟩ |
        ⟨e, ⟨s', w'⟩, hs, hX⟩ :=
      (Session.acquire_simulates hB hW (stamp last r.now)).cases_excused h
    · rw [hs, ht]
      obtain ⟨⟨board, waited, -, rfl⟩, -⟩ := id h'
      exact .inl ⟨h', rfl, rfl⟩
    · rw [hs, ht]
      exact finish_twins hB h' (some e)
    · rw [hs]
      exact .inr (.running hX)
  · exact finish_twins hB h none

/-- One step of twins. -/
theorem step_twins {a : Acquisition β} {b : Acquisition β'} {w : ω} {v : ω'}
    (h : Session.TwinPairs R W (a.session, w) (b.session, v)) (hphase : a.phase = b.phase)
    (r : Reading) : StepsAlike R W X (step r a w) (step r b v) := by
  unfold step
  rw [hphase]
  cases hb : b.phase with
  | waiting => exact stepWaiting_twins hB h r
  | cycling last => exact stepCycling_twins hB hW h r last
  | finished error => exact .inl ⟨h, hphase, rfl⟩

end Acquisition

/-! ## Whole acquisitions -/

namespace Acquisition

variable [Board β] [Board β'] [DataWriter ω] [DataWriter ω'] (hB : TwinBoards β β' R)
  (hW : TwinWriters ω ω' W)
include hB hW

theorem runFrom_twins (readings : List Reading) {news : List Progress} {a : Acquisition β}
    {b : Acquisition β'} {w : ω} {v : ω'}
    (h : Session.TwinPairs R W (a.session, w) (b.session, v)) (hphase : a.phase = b.phase) :
    Twins R W (runFrom news readings a w) (runFrom news readings b v) := by
  induction readings generalizing news a b w v with
  | nil =>
    have h₁ := (step_twins hB hW h hphase stopping).twins
    have h₂ := (step_twins hB hW h₁.pair h₁.phase stopping).twins
    refine ⟨h₂.pair, h₂.phase, ?_⟩
    exact congrArg₂ (fun started ended => news ++ started ++ ended) h₁.news h₂.news
  | cons r readings ih =>
    have h₁ := (step_twins hB hW h hphase r).twins
    unfold runFrom
    generalize step r a w = x at h₁ ⊢
    generalize step r b v = y at h₁ ⊢
    obtain ⟨⟨a', more⟩, w'⟩ := x
    obtain ⟨⟨b', _⟩, v'⟩ := y
    obtain ⟨hpair, hphase', rfl⟩ := h₁
    exact ih hpair hphase'

/-- Acquisitions of twins end alike. -/
theorem run_twins (readings : List Reading) {s : Session β} {t : Session β'} {w : ω} {v : ω'}
    (h : Session.TwinPairs R W (s, w) (t, v)) :
    Twins R W (run readings s w) (run readings t v) :=
  runFrom_twins hB hW readings h rfl

end Acquisition

/-! ## Without the logs -/

variable [Board β] [DataWriter ω]

/-- An acquisition, its news and its writer, behind the logs. -/
def Acquisition.forget (x : (Acquisition (LoggedBoard β) × List Progress) × LoggedWriter ω) :
    (Acquisition β × List Progress) × ω :=
  (({ session := x.1.1.session.forget, phase := x.1.1.phase }, x.1.2), x.2.writer)

/-- The logs change nothing about an acquisition. -/
theorem Acquisition.run_forget (readings : List Reading) (s : Session (LoggedBoard β))
    (w : LoggedWriter ω) : run readings s.forget w.writer = forget (run readings s w) := by
  have h := run_twins (LoggedBoard.twins β) (LoggedWriter.twins ω) readings
    (Session.twinPairs_iff.2 (rfl : Session.forgetBoth (s, w) = (s.forget, w.writer)))
  obtain ⟨hsession, hwriter⟩ := Prod.ext_iff.1 (Session.twinPairs_iff.1 h.pair)
  have hphase := h.phase
  have hnews := h.news
  generalize run readings s.forget w.writer = x at hsession hwriter hphase hnews ⊢
  obtain ⟨⟨⟨session, phase⟩, news⟩, writer⟩ := x
  obtain rfl : _ = session := hsession
  obtain rfl : _ = writer := hwriter
  obtain rfl : _ = phase := hphase
  obtain rfl : _ = news := hnews
  rfl

end PulseDaq
