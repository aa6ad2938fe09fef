import Mathlib.Data.List.Chain
import PulseDaq.Board.Simulated
import PulseDaq.Proofs.Readout.Building

/-!
# What simulated boards draw

A simulated board draws the values of its events at random. Whatever it draws, the clock of the
board goes on from event to event, and nothing else of the board changes.

* `Ticking`: times that go on from a time, each one to 999 ticks above the one before it.
* `SimulatedBoard.Rolls`: a rule for drawing actions, from the time before to the answer and the
  time behind. There is one lemma for each way to compose them.
* `SimulatedBoard.Makes`: the group calls of a read, and `Makes.Timed`: their times and channels.
* `SimulatedBoard.aggregate_makes`: an aggregate is made by such calls.
-/

namespace PulseDaq

/-! ## The clock -/

/-- The time `t'` is one to 999 ticks above `t`, modulo `2 ^ 32`. -/
def ShortlyAfter (t t' : UInt32) : Prop :=
  ∃ gap, 1 ≤ gap ∧ gap ≤ 999 ∧ t' = t + UInt32.ofNat gap

/-- The times go on from the first time to the last one. -/
inductive Ticking : UInt32 → List UInt32 → UInt32 → Prop
  | nil (t : UInt32) : Ticking t [] t
  | cons {t t' last : UInt32} {times : List UInt32} (next : ShortlyAfter t t')
    (rest : Ticking t' times last) : Ticking t (t' :: times) last

namespace Ticking

variable {t t' last : UInt32} {times times' : List UInt32}

theorem append (h : Ticking t times t') (h' : Ticking t' times' last) :
    Ticking t (times ++ times') last := by
  induction h with
  | nil t => exact h'
  | cons next _ ih => exact .cons next (ih h')

/-- Each time follows the one before it. -/
theorem isChain (h : Ticking t times last) : (t :: times).IsChain ShortlyAfter := by
  induction h with
  | nil t => exact .singleton t
  | cons next _ ih => exact .cons_cons next ih

end Ticking

namespace SimulatedBoard

/-! ## Drawing -/

/-- The boards differ at most in their clocks and in how much they have drawn. -/
def Beside (b b' : SimulatedBoard) : Prop :=
  ∃ drawn time, b' = { b with drawn, time }

theorem Beside.refl (b : SimulatedBoard) : Beside b b :=
  ⟨b.drawn, b.time, rfl⟩

theorem Beside.trans {a b c : SimulatedBoard} (h : Beside a b) (h' : Beside b c) :
    Beside a c := by
  obtain ⟨_, _, rfl⟩ := h
  obtain ⟨drawn, time, rfl⟩ := h'
  exact ⟨drawn, time, rfl⟩

/-- From a time with `P`, the action answers something that has `Q` with the time behind it, and
leaves a board beside the one that it was given. -/
def Rolls {α : Type} (P : UInt32 → Prop) (c : StateM SimulatedBoard α)
    (Q : α → UInt32 → Prop) : Prop :=
  ∀ b, P b.time → Q (c b).1 (c b).2.time ∧ Beside b (c b).2

namespace Rolls

variable {α β γ : Type} {P : UInt32 → Prop} {c : StateM SimulatedBoard α}
  {Q : α → UInt32 → Prop}

theorem pure {a : α} (h : ∀ t, P t → Q a t) : Rolls P (Pure.pure a) Q :=
  fun b hb => ⟨h b.time hb, .refl b⟩

theorem bind {f : α → StateM SimulatedBoard β} {R : β → UInt32 → Prop} (hc : Rolls P c Q)
    (hf : ∀ a, Rolls (Q a) (f a) R) : Rolls P (c >>= f) R := by
  intro b hb
  obtain ⟨hq, hbeside⟩ := hc b hb
  obtain ⟨hr, hbeside'⟩ := hf _ (c b).2 hq
  exact ⟨hr, hbeside.trans hbeside'⟩

/-- What the clock does not say is known beforehand. -/
theorem lift {φ : Prop} (h : φ → Rolls P c Q) : Rolls (fun t => φ ∧ P t) c Q :=
  fun b hb => h hb.1 b hb.2

/-- The next number is below its bound; drawing takes no time. -/
theorem draw {bound : Nat} (hbound : 0 < bound) :
    Rolls P (SimulatedBoard.draw bound) fun n t => n < bound ∧ P t :=
  fun b hb => ⟨⟨Nat.mod_lt _ hbound, hb⟩, b.drawn + 1, b.time, rfl⟩

/-- A loop answers once for each of its turns; what takes no time takes none in a loop. -/
theorem mapM {f : γ → StateM SimulatedBoard α} (h : ∀ x, Rolls P (f x) fun _ => P) (l : List γ) :
    Rolls P (l.mapM f) fun _ => P := by
  induction l with
  | nil =>
    rw [List.mapM_nil]
    exact .pure fun _ ht => ht
  | cons x l ih =>
    rw [List.mapM_cons]
    exact .bind (h x) fun _ => .bind ih fun _ => .pure fun _ ht => ht

end Rolls

/-- An event that is drawn after the time `t`. -/
structure DrawnAfter (t : UInt32) (e : SyntheticEvent) : Prop where
  after : ShortlyAfter t e.time
  channel_lt : e.channel.toNat < channelsPerGroup

theorem event_rolls (format : GroupFormat) (t : UInt32) :
    Rolls (· = t) (event format) fun e t' => DrawnAfter t e ∧ e.time = t' := by
  have hsample (t' : UInt32) (k : Nat) : Rolls (· = t') (sample k) fun _ => (· = t') :=
    .bind (.draw (by decide)) fun _ => .pure fun _ h => h.2
  refine .bind (.draw (by decide)) fun gap => .lift fun hgap => ?_
  have hafter : ShortlyAfter t (t + UInt32.ofNat (gap + 1)) := ⟨gap + 1, by omega, by omega, rfl⟩
  -- The clock is set once; what is drawn afterwards takes no time.
  refine .bind (Q := fun _ => (· = t + UInt32.ofNat (gap + 1))) ?_ fun _ => ?_
  · rintro b rfl
    exact ⟨rfl, b.drawn, _, rfl⟩
  refine .bind (Q := fun b t' => b.time = t + UInt32.ofNat (gap + 1) ∧
      t' = t + UInt32.ofNat (gap + 1))
    (fun b hb => ⟨⟨hb, hb⟩, .refl b⟩) fun b => .lift fun htime => ?_
  refine .bind (.mapM (hsample _) _) fun _ => .bind (.draw (by decide)) fun _ => .lift fun _ => ?_
  refine .bind (.draw (by decide)) fun channel => .lift fun hchannel => ?_
  refine .bind (.draw (by decide)) fun _ => .lift fun _ => .pure ?_
  rintro _ rfl
  refine ⟨⟨htime ▸ hafter, ?_⟩, htime⟩
  show (UInt8.ofNat channel).toNat < channelsPerGroup
  rwa [UInt8.toNat_ofNat_of_lt' (Nat.lt_trans hchannel (by decide))]

/-- The events of a group, one after the other. -/
theorem events_rolls (format : GroupFormat) (turns : List Nat) (t : UInt32) :
    Rolls (· = t) (turns.mapM fun _ => event format) fun es t' =>
      es.length = turns.length ∧ Ticking t (es.map (·.time)) t' ∧
        ∀ e ∈ es, e.channel.toNat < channelsPerGroup := by
  induction turns generalizing t with
  | nil =>
    rw [List.mapM_nil]
    refine .pure ?_
    rintro _ rfl
    exact ⟨rfl, .nil _, nofun⟩
  | cons _ turns ih =>
    rw [List.mapM_cons]
    refine .bind (event_rolls format t) fun e => .lift fun he => ?_
    refine Rolls.bind (P := fun t' => e.time = t')
      (Q := fun es t' => es.length = turns.length ∧ Ticking e.time (es.map (·.time)) t' ∧
        ∀ e ∈ es, e.channel.toNat < channelsPerGroup) ?_ fun es => .pure ?_
    · rintro b hb
      exact ih e.time b hb.symm
    · rintro t' ⟨hlength, hticking, hchannels⟩
      exact ⟨congrArg Nat.succ hlength, .cons he.after hticking,
        List.forall_mem_cons.2 ⟨he.channel_lt, hchannels⟩⟩

/-! ## The calls of a read -/

/-- The groups that take part in a read. -/
def enabled (b : SimulatedBoard) : List Group :=
  GroupMask.groups (b.register .groupEnableMask none).toNat

/-- The group calls of a read: one for every group that takes part, each with as many events as the
settings say, and all in one format. -/
structure Makes (b : SimulatedBoard) (calls : List GroupCall) : Prop where
  indices : calls.map (·.index) = b.enabled.map fun g => UInt8.ofNat g.val
  each : ∀ c ∈ calls, c.format = b.format ∧ c.events.length = b.simulation.eventsPerGroup.toNat

/-- The events of group calls go on from a time, from group to group as within a group, and their
channels lie in their group. -/
structure Timed (t : UInt32) (calls : List GroupCall) (t' : UInt32) : Prop where
  ticking : Ticking t (calls.flatMap fun c => c.events.map (·.time)) t'
  channel_lt : ∀ c ∈ calls, ∀ e ∈ c.events, e.channel.toNat < channelsPerGroup

theorem groups_rolls (format : GroupFormat) (events : Nat) (a : BoardAggregate) (gs : List Group)
    (t : UInt32) :
    Rolls (· = t) (groups format events a gs) fun a' t' => ∃ calls : List GroupCall,
      calls.map (·.index) = gs.map (fun g => UInt8.ofNat g.val) ∧
      (∀ c ∈ calls, c.format = format ∧ c.events.length = events) ∧ Timed t calls t' ∧
      a' = calls.foldl (fun a c => a.add c.index c.format c.events) a := by
  -- The groups in front of `gs` are in `a` already, whatever they are.
  induction gs generalizing a t with
  | nil =>
    refine .pure ?_
    rintro _ rfl
    exact ⟨[], rfl, by simp, ⟨.nil _, by simp⟩, rfl⟩
  | cons g gs ih =>
    unfold groups
    refine .bind (events_rolls format _ t) fun made => ?_
    rintro b ⟨hlength, hticking, hchannels⟩
    obtain ⟨⟨calls, hindices, heach, htimed, hadded⟩, hbeside⟩ :=
      ih (a.add (UInt8.ofNat g.val) format made) b.time b rfl
    refine ⟨⟨⟨UInt8.ofNat g.val, format, made⟩ :: calls, ?_, ?_, ⟨?_, ?_⟩, hadded⟩, hbeside⟩
    · rw [List.map_cons, List.map_cons, hindices]
    · refine List.forall_mem_cons.2 ⟨⟨rfl, ?_⟩, heach⟩
      rw [hlength, List.length_range]
    · rw [List.flatMap_cons]
      exact hticking.append htimed.ticking
    · exact List.forall_mem_cons.2 ⟨hchannels, htimed.channel_lt⟩

/-- What is read is made by such calls. -/
theorem aggregate_makes (b : SimulatedBoard) :
    (∃ calls, Makes b calls ∧ Timed b.time calls (aggregate b).2.time ∧
      (aggregate b).1 = BoardAggregate.ofCalls calls) ∧ Beside b (aggregate b).2 := by
  obtain ⟨⟨calls, hindices, heach, htimed, hmade⟩, hbeside⟩ :=
    groups_rolls b.format b.simulation.eventsPerGroup.toNat .empty b.enabled b.time b rfl
  exact ⟨⟨calls, ⟨hindices, heach⟩, htimed, hmade⟩, hbeside⟩

/-- A read of a board that acquires and does not idle has an aggregate, broken or not. -/
theorem readout_eq (b : SimulatedBoard) (n : UInt32) : readout n b =
    if !b.acquiring || isDue n b.simulation.idleEvery then ([], b)
    else (if isDue n b.simulation.corruptEvery then corrupted (aggregate b).1.toBytes
      else (aggregate b).1.toBytes, (aggregate b).2) := by
  show (if (!b.acquiring || isDue n b.simulation.idleEvery) = true then _ else _ :
    StateM SimulatedBoard Bytes) b = _
  split <;> rfl

/-- A readout leaves a board beside the one that is read. -/
theorem readout_beside (b : SimulatedBoard) (n : UInt32) : Beside b (readout n b).2 := by
  rw [readout_eq]
  split
  · exact .refl b
  · exact (aggregate_makes b).2

end SimulatedBoard

end PulseDaq
