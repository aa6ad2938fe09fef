import PulseDaq.Proofs.Board.History

/-!
# Values for one group and for all of them

Some functions of a board take an index or none; without one they address every group at once. A
simulated board keeps the value set without an index beside those set with one, and answers from the
latter first. So a set for all groups is not seen by a group that has been set on its own before.

* `BoardLog.addressed`: the latest value that was set for an index, on its own or with all others.
* `BoardLog.overruled`: since an index was set on its own, all of them have been set at once.
* `SimulatedBoard.get_addressed`: a board answers the value that was addressed to the index last,
  unless it has been overruled; then it answers the one before.
-/

namespace PulseDaq

namespace BoardLog

/-- The value of the latest set of a function that was answered and addressed an index, on its own
or together with all others. -/
def addressed (f : FunctionId) (i : UInt32) : BoardLog → Option UInt32
  | [] => none
  | (.set g index value, .ok _) :: earlier =>
    if g = f ∧ (index = some i ∨ index = none) then some value else addressed f i earlier
  | _ :: earlier => addressed f i earlier

/-- The index has been set on its own, and later all of them have been set at once. -/
def overruled (f : FunctionId) (i : UInt32) : BoardLog → Bool
  | [] => false
  | (.set g index _, .ok _) :: earlier =>
    if (g, index) = (f, some i) then false
    else if (g, index) = (f, none) then (lastSet (f, some i) earlier).isSome
    else overruled f i earlier
  | _ :: earlier => overruled f i earlier

variable {f : FunctionId} {i : UInt32}

/-- An index is overruled only if it has been set on its own. Else the latest value addressed to it
is its own value or, if it has none, that of all. -/
theorem addressed_cases (log : BoardLog) :
    if overruled f i log then (lastSet (f, some i) log).isSome = true
    else addressed f i log = (lastSet (f, some i) log).or (lastSet (f, none) log) := by
  induction log with
  | nil => rfl
  | cons e log ih =>
    obtain ⟨c, r⟩ := e
    cases r with
    | error e => cases c <;> exact ih
    | ok a =>
      cases c with
      | set g index value =>
        by_cases hown : (g, index) = (f, some i)
        · obtain ⟨rfl, rfl⟩ := Prod.mk.inj hown
          simp [overruled, addressed, lastSet]
        · by_cases hall : (g, index) = (f, none)
          · obtain ⟨rfl, rfl⟩ := Prod.mk.inj hall
            cases hset : lastSet (g, some i) log <;>
              simp [overruled, addressed, lastSet, hset]
          · have hother : ¬(g = f ∧ (index = some i ∨ index = none)) := by
              rintro ⟨rfl, rfl | rfl⟩
              · exact hown rfl
              · exact hall rfl
            simpa only [overruled, addressed, lastSet, hown, hall, hother, if_false,
              eq_comm (a := (f, some i)), eq_comm (a := (f, (none : Option UInt32)))] using ih
      | _ => exact ih

end BoardLog

namespace SimulatedBoard

variable {b₀ b : SimulatedBoard} {l : LoggedBoard SimulatedBoard} {f : FunctionId} {i : UInt32}

/-- The value for an index is that of its own set, else that of the set for all, else the one it had
at first. -/
theorem Recorded.register_eq (h : Recorded b₀ l) (hnone : b₀.registers.lookup (f, some i) = none) :
    l.board.register f (some i) =
      ((l.log.lastSet (f, some i)).or (l.log.lastSet (f, none))).getD (b₀.register f (some i)) := by
  rw [register, h.registers, h.registers, hnone, register, hnone, Option.or_none, Option.none_or,
    ← Option.or_assoc]
  cases (l.log.lastSet (f, some i)).or (l.log.lastSet (f, none)) <;> rfl

/-- It is the value that was addressed to the index last, unless all were set at once after it. -/
theorem Recorded.register_addressed (h : Recorded b₀ l)
    (hnone : b₀.registers.lookup (f, some i) = none) :
    if l.log.overruled f i then l.log.lastSet (f, some i) = some (l.board.register f (some i))
    else l.board.register f (some i) = (l.log.addressed f i).getD (b₀.register f (some i)) := by
  have hcases := l.log.addressed_cases (f := f) (i := i)
  rw [h.register_eq hnone]
  split
  next hoverruled =>
    rw [if_pos hoverruled, Option.isSome_iff_exists] at hcases
    obtain ⟨own, hown⟩ := hcases
    rw [hown, Option.some_or, Option.getD_some]
  next hcurrent =>
    rw [if_neg hcurrent] at hcases
    rw [hcases]

/-- At first no index has a value of its own. -/
theorem lookup_ofSimulation (s : Simulation) (noise : Nat → Nat) (f : FunctionId) (i : UInt32) :
    (ofSimulation s noise).registers.lookup (f, some i) = none := by
  have hkey (g : FunctionId) : ((f, some i) == (g, (none : Option UInt32))) = false :=
    beq_eq_false_iff_ne.2 nofun
  simp [ofSimulation, List.lookup_cons, hkey]

/-- A function that takes both forms can be read with an index, as long as the link is up. -/
theorem getValue_either (hf : f.indexing = .either) (b : SimulatedBoard) (i : UInt32) :
    Triple (· = b) (getValue f (some i))
      (fun v b' => b.failuresLeft = 0 ∧ v = b.register f (some i) ∧ b' = b)
      fun e _ => b.failuresLeft ≠ 0 ∧ e = .communication "simulated link timeout" := by
  have hcheck : f.check (some i) false = .ok () := by
    unfold FunctionId.check
    rw [hf]
    rfl
  have hstatus : f ≠ .acquisitionStatus := by
    rintro rfl
    cases hf
  refine .bind (.ofExcept _ fun e _ he => ?_) fun _ => .lift fun _ => ?_
  · rw [hcheck] at he
    cases he
  refine .bind ((link_triple b).imp_error fun e _ h => ⟨h.1, h.2.1⟩) fun _ => ?_
  refine .lift fun hup => .bind_get fun b₁ h₁ => .ite (fun hf => absurd hf hstatus) fun _ => ?_
  subst h₁
  exact .pure _ fun _ hb => ⟨hup, rfl, hb⟩

/-- A set or get that fails changes no value, and neither does a get that is answered. -/
theorem Took.values_eq {e : BoardCall × Except BoardError Unit} {b b' : SimulatedBoard}
    (h : Took e b b') (he : ∀ f index value, e ≠ (.set f index value, .ok ())) :
    b'.registers = b.registers := by
  rw [h.registers]
  obtain ⟨c, r⟩ := e
  cases c with
  | set f index value =>
    cases r with
    | error e => rfl
    | ok a => exact absurd rfl (he f index value)
  | _ => cases r <;> rfl

/-- What is answered for an index, after any calls of a board: the value that was addressed to it
last, on its own or with all others, or the one it had at first. Only where all were set at once
after it had been set on its own, its own value is answered still. It is answered whenever the link
is up, and calls that fail change no value. -/
theorem get_addressed (s : Simulation) (noise : Nat → Nat)
    (calls : List (BoardCall × ReadoutBuffer)) :
    let l := LoggedBoard.run (ofSimulation s noise) calls
    (∀ f i, f.indexing = .either →
      match Board.get f (some i) l.board with
      | .ok v b =>
        l.board.failuresLeft = 0 ∧ b = l.board ∧
          if l.log.overruled f i then l.log.lastSet (f, some i) = some v
          else v = (l.log.addressed f i).getD ((ofSimulation s noise).register f (some i))
      | .error e _ =>
        l.board.failuresLeft ≠ 0 ∧ e = .communication "simulated link timeout") ∧
    (∀ f index e b, Board.get f index l.board = .error e b → b.registers = l.board.registers) ∧
    ∀ f index v e b, Board.set f index v l.board = .error e b →
      b.registers = l.board.registers := by
  intro l
  have hrecorded : Recorded (ofSimulation s noise) l := recorded_run _ calls
  refine ⟨fun f i hf => ?_, fun f index e b herror => ?_, fun f index v e b herror => ?_⟩
  · have hget := getValue_either hf l.board i l.board rfl
    show match getValue f (some i) l.board with
      | .ok v b => _
      | .error e _ => _
    cases hrun : getValue f (some i) l.board with
    | error e b =>
      rw [hrun] at hget
      exact hget
    | ok v b =>
      rw [hrun] at hget
      obtain ⟨hup, hv, hb⟩ := hget
      have hvalue := hrecorded.register_addressed (lookup_ofSimulation s noise f i)
      rw [← hv] at hvalue
      exact ⟨hup, hb, hvalue⟩
  · exact ((getValue_took l.board f index).error rfl herror).values_eq (by simp)
  · exact ((setValue_took l.board f index v).error rfl herror).values_eq (by simp)

/-- Group 0 is set on its own, then with all others. -/
def setForAll : List (BoardCall × ReadoutBuffer) :=
  [(.set .recordLength (some 0) 8, ⟨0, []⟩), (.set .recordLength none 16, ⟨0, []⟩)]

/-- Group 1 answers what was set for all, group 0 what it was set to before. A set that is refused
changes neither. -/
theorem get_setForAll :
    let l := LoggedBoard.run (ofSimulation {} fun _ => 0) setForAll
    FunctionId.recordLength.indexing = .either ∧
      (l.log.addressed .recordLength 0 = some 16 ∧ l.log.overruled .recordLength 0 = true ∧
        ∃ b, Board.get .recordLength (some 0) l.board = .ok 8 b) ∧
      (l.log.addressed .recordLength 1 = some 16 ∧ l.log.overruled .recordLength 1 = false ∧
        ∃ b, Board.get .recordLength (some 1) l.board = .ok 16 b) ∧
      ∃ b, Board.set .groupEnableMask (some 0) 1 l.board =
        .error (.index .groupEnableMask (some 0)) b ∧ b.registers = l.board.registers := by
  intro l
  obtain ⟨hget, -, hset⟩ := get_addressed {} (fun _ => 0) setForAll
  have hanswer (i : UInt32) : ∃ v, Board.get .recordLength (some i) l.board = .ok v l.board ∧
      if l.log.overruled .recordLength i then l.log.lastSet (.recordLength, some i) = some v
      else v = (l.log.addressed .recordLength i).getD 0 := by
    have h := hget .recordLength i rfl
    split at h
    next v b hrun => exact ⟨v, h.2.1 ▸ hrun, h.2.2⟩
    next e b hrun => exact absurd rfl h.1
  obtain ⟨own, hown, hfirst⟩ := hanswer 0
  obtain ⟨all, hall, hsecond⟩ := hanswer 1
  obtain rfl : 8 = own := Option.some.inj hfirst
  obtain rfl : all = 16 := hsecond
  have hrefused : Board.set .groupEnableMask (some 0) 1 l.board =
      .error (.index .groupEnableMask (some 0)) l.board := rfl
  exact ⟨rfl, ⟨rfl, rfl, _, hown⟩, ⟨rfl, rfl, _, hall⟩, _, hrefused, hset _ _ _ _ _ hrefused⟩

end SimulatedBoard

end PulseDaq
