import Mathlib.Order.Bounds.Basic
import PulseDaq.Proofs.Record.Filling
import PulseDaq.Proofs.Session.Capacity

/-!
# The geometry that a session decides

To initialise a session is to ask its board for some values and to decide with nothing else whether
there is something to acquire, and what its events look like.

* `BoardValues.layout`: the decision as a function of the values. The session makes just this one
  (`Session.geometry_decides`).
* `TriggerSettings.toNat_window`: a window saturates in several places, and is as long as it would
  be if it did so only in the end.
* `Layout.Decided`: what is decided about the events.
* `Session.initialise_decides`: when a session is not initialised, and what it has got if it is.
-/

namespace PulseDaq

/-- The values of a board. -/
abbrev BoardValues := FunctionId → Option UInt32 → UInt32

/-- The values that a layout is made of. -/
inductive Layout.Needs : FunctionId → Option UInt32 → Prop
  | configuration : Needs .boardConfiguration none
  | mask : Needs .groupEnableMask none
  | recordLength : Needs .recordLength (some 0)
  | preTrigger (g : Group) : Needs .dppPreTriggerSize (some (.ofNat g.val))
  | holdOff (g : Group) : Needs .dppTriggerHoldOffWidth (some (.ofNat g.val))
  | gateWidth (g : Group) : Needs .dppGateWidth (some (.ofNat g.val))
  | gateOffset (g : Group) : Needs .dppGateOffset (some (.ofNat g.val))

/-- A board with `R` answers the values that a layout is made of, and goes on doing so. -/
def Board.Answers {β : Type} [Board β] (R : β → Prop) (V : BoardValues) : Prop :=
  ∀ f i, Layout.Needs f i →
    Triple R (Board.get f i) (fun v b => v = V f i ∧ R b) fun _ _ => False

/-! ## The decision -/

namespace BoardValues

variable (V : BoardValues)

def configuration : BoardConfiguration where
  value := V .boardConfiguration none

def mask : UInt32 :=
  V .groupEnableMask none

/-- Only waveforms have a record length. -/
def recordLength : UInt32 :=
  if V.configuration.waveform then V .recordLength (some 0) else 0

/-- The trigger settings of a group. -/
def settings (g : Group) : TriggerSettings where
  preTrigger := V .dppPreTriggerSize (some (.ofNat g.val))
  holdOff := V .dppTriggerHoldOffWidth (some (.ofNat g.val))
  gateWidth := V .dppGateWidth (some (.ofNat g.val))
  gateOffset := V .dppGateOffset (some (.ofNat g.val))

/-- The geometry that the values ask for, or why there is none. -/
def layout : Except SessionError Layout :=
  let groups := GroupMask.groups V.mask.toNat
  if groups = [] then
    .error .noGroups
  else if GroupFormat.maxSamples < V.recordLength.toNat then
    .error (.recordLength V.recordLength GroupFormat.maxSamples)
  else
    .ok (.ofRegisters V.configuration.extras V.configuration.waveform V.recordLength
      (groups.map fun g => (g, V.settings g)))

end BoardValues

namespace Session

variable {β ω : Type} [Board β] {P : Session β → Prop} {R : β → Prop} {V : BoardValues}

section Exact

variable (hP : Blind P)
include hP

omit [Board β] in
/-- A call whose answer is known, and which does not fail, does not fail with retries either. -/
theorem retried_exact {α : Type} {c : EStateM BoardError β α} {a : α}
    (hc : Triple R c (fun a' b => a' = a ∧ R b) fun _ _ => False) :
    Triple (fun s => P s ∧ R s.board) (retried (call c)) (fun a' s => a' = a ∧ P s ∧ R s.board)
      fun _ _ => False :=
  (retried_call hP hc fun _ _ h => h.elim).imp (fun _ _ ⟨hs, ha, hR⟩ => ⟨ha, hs, hR⟩)
    fun _ _ ⟨_, _, h⟩ => h

variable (hV : Board.Answers R V)
include hV

theorem triggerSettings_exact (g : Group) :
    Triple (fun s => P s ∧ R s.board) (triggerSettings g)
      (fun t s => t = V.settings g ∧ P s ∧ R s.board) fun _ _ => False := by
  refine .bind (retried_exact hP (hV _ _ (.preTrigger g))) fun _ => .lift ?_
  rintro rfl
  refine .bind (retried_exact hP (hV _ _ (.holdOff g))) fun _ => .lift ?_
  rintro rfl
  refine .bind (retried_exact hP (hV _ _ (.gateWidth g))) fun _ => .lift ?_
  rintro rfl
  refine .bind (retried_exact hP (hV _ _ (.gateOffset g))) fun _ => .lift ?_
  rintro rfl
  exact .pure _ fun _ hs => ⟨rfl, hs⟩

theorem settings_exact (groups : List Group) :
    Triple (fun s => P s ∧ R s.board)
      (groups.mapM fun g => do return (g, ← triggerSettings g))
      (fun settings s => settings = (groups.map fun g => (g, V.settings g)) ∧ P s ∧ R s.board)
      fun _ _ => False := by
  refine .mapM_exact (fun g => .bind (triggerSettings_exact hP hV g) fun _ => .lift ?_) groups
  rintro rfl
  exact .pure _ fun _ hs => ⟨rfl, hs⟩

/-- The session decides what the values of its board decide. -/
theorem geometry_decides :
    Triple (fun s => (Board.firmware s.board).isSupported = true ∧ P s ∧ R s.board) geometry
      (fun l s => V.layout = .ok l ∧ P s ∧ R s.board) fun e _ => V.layout = .error e := by
  have hconfiguration : Triple R Board.boardConfiguration
      (fun c b => c = V.configuration ∧ R b) fun _ _ => False :=
    .bind (hV _ _ .configuration) fun v => .pure _ fun _ h => ⟨h.1 ▸ rfl, h.2⟩
  have hmask : Triple R Board.groupEnableMask (fun m b => m = V.mask.toUInt8 ∧ R b)
      fun _ _ => False :=
    .bind (hV _ _ .mask) fun v => .pure _ fun _ h => ⟨h.1 ▸ rfl, h.2⟩
  have hbyte : GroupMask.groups V.mask.toUInt8.toNat = GroupMask.groups V.mask.toNat := by
    rw [UInt32.toNat_toUInt8, ← GroupMask.groups_mod V.mask.toNat, ← GroupMask.groups_mod]
  refine .bind_get fun s₀ ⟨hfirmware, h₀⟩ => .guard (fun hnot => ?_) fun _ => ?_
  · simp [hfirmware] at hnot
  refine .bind ((retried_exact hP hconfiguration).conseq (fun s hs => hs ▸ h₀) (fun _ _ h => h)
    fun _ _ h => h.elim) fun _ => .lift ?_
  rintro rfl
  refine .bind ((retried_exact hP hmask).imp_error fun _ _ h => h.elim) fun _ => .lift ?_
  rintro rfl
  dsimp only
  rw [hbyte]
  refine .guard (fun hnone _ _ => ?_) fun hgroups => ?_
  · rw [BoardValues.layout, if_pos (List.isEmpty_iff.1 hnone)]
  rw [List.isEmpty_iff] at hgroups
  have hsettings : Triple (fun s : Session β => P s ∧ R s.board) _ _
      fun e _ => V.layout = .error e :=
    (settings_exact hP hV (GroupMask.groups V.mask.toNat)).imp_error fun _ _ h => h.elim
  refine .ite (fun hwaveform => .bind (.imp_error (retried_exact hP (hV _ _ .recordLength))
      fun _ _ h => h.elim) fun n => ?_)
    fun hwaveform => .bind (.pure (Q := fun n s => n = 0 ∧ P s ∧ R s.board) _ fun _ h => ⟨rfl, h⟩)
      fun n => ?_
  all_goals
    refine .lift fun hn => ?_
    have hlength : n = V.recordLength := by rw [BoardValues.recordLength, hn]; simp [hwaveform]
    subst hlength
    refine .guard (fun hlong _ _ => ?_) fun hshort => .bind hsettings fun settings => .lift ?_
    · rw [BoardValues.layout, if_neg hgroups, if_pos hlong]
    · rintro rfl
      refine .pure _ fun _ h => ⟨?_, h⟩
      rw [BoardValues.layout, if_neg hgroups, if_neg hshort]

end Exact

/-- A session that the writer takes is initialised exactly as its values decide. -/
theorem initialise_layout [DataWriter ω] (hV : Board.Answers R V) {s : Session β} {w w' : ω}
    (hstate : s.state = .closed) (hfirmware : (Board.firmware s.board).isSupported = true)
    (hR : R s.board) (hadd : DataWriter.addDigitizer s.id w = .ok () w') :
    match V.layout with
    | .ok layout => ∃ s', initialise (s, w) = .ok () (s', w') ∧ s'.state = .initialised ∧
        s'.layout = some layout
    | .error e => ∃ left, initialise (s, w) = .error e left := by
  have hnamed : Blind fun s' : Session β => s'.id = s.id := fun _ _ _ h => h
  have hgeometry := geometry_decides hnamed hV s ⟨hfirmware, rfl, hR⟩
  have hrequire := alone_of_ok w (require_ok hstate .initialise)
  cases hrun : geometry s with
  | error e s₁ =>
    rw [hrun] at hgeometry
    dsimp only at hgeometry
    rw [hgeometry]
    exact ⟨(s₁, w), (bind_of_ok hrequire).trans (bind_of_error (alone_of_error w hrun))⟩
  | ok layout s₁ =>
    rw [hrun] at hgeometry
    obtain ⟨hlayout, hid, -⟩ := hgeometry
    rw [hlayout]
    have hwriting : (writing (DataWriter.addDigitizer s₁.id)).adaptExcept SessionError.writer
        (s₁, w) = .ok () (s₁, w') := by
      simp only [EStateM.adaptExcept, writing, hid, hadd]
    exact ⟨_, (bind_of_ok hrequire).trans ((bind_of_ok (alone_of_ok w hrun)).trans
      ((bind_of_ok rfl).trans (bind_of_ok hwriting))), rfl, rfl⟩

end Session

/-! ## What is decided -/

/-- No group takes part exactly if the low byte of the mask is zero. -/
theorem GroupMask.groups_eq_nil_iff {mask : Nat} : groups mask = [] ↔ mask % 256 = 0 := by
  rw [← groups_mod]
  refine ⟨fun h => Nat.eq_of_testBit_eq fun i => ?_, fun h => by rw [h]; rfl⟩
  by_cases hi : i < 8
  · have hnot : ⟨i, hi⟩ ∉ groups (mask % 256) := by
      rw [h]
      exact List.not_mem_nil
    simpa [mem_groups] using hnot
  · have hcut := Nat.testBit_mod_two_pow mask 8 i
    simpa [hi] using hcut

theorem GroupMask.groups_ascending (mask : Nat) : (groups mask).Pairwise (· < ·) :=
  (List.pairwise_lt_finRange 8).filter _

/-- The samples of a format are as many as it was made for, rounded up. -/
theorem GroupFormat.samples_withSamples (extras : Bool) {n : Nat} (hn : n ≤ maxSamples) :
    IsLeast {k | n ≤ k ∧ 8 ∣ k} (withSamples extras n).samples := by
  rw [samples, sampleWords_withSamples extras hn]
  refine ⟨⟨?_, ?_⟩, ?_⟩
  · omega
  · omega
  · rintro k ⟨hle, hdvd⟩
    omega

namespace TriggerSettings

/-- What is doubled and cut in the end need not be cut before. -/
theorem min_two_mul_max (r a b m : Nat) :
    min (2 * max (max r (min a m)) (min b m)) m = min (2 * max (max r a) b) m := by
  omega

/-- A window is computed as if numbers had no largest one, and then cut. -/
theorem toNat_window (t : TriggerSettings) (recordLength : UInt32) :
    (t.window recordLength).toNat = min (2 * max
      (max recordLength.toNat (t.preTrigger.toNat + t.holdOff.toNat))
      (t.gateWidth.toNat - t.gateOffset.toNat + t.preTrigger.toNat)) largest := by
  rw [window, min_two_mul_max, UInt32.toNat_ofNat', Nat.mod_eq_of_lt]
  exact Nat.lt_of_le_of_lt (Nat.min_le_right _ _) (by decide)

/-- The same with integers, where a gate that ends before its offset counts as none. -/
theorem natCast_toNat_window (t : TriggerSettings) (recordLength : UInt32) :
    ((t.window recordLength).toNat : Int) = min 0xFFFFFFFF (2 * max
      (max (recordLength.toNat : Int) (t.preTrigger.toNat + t.holdOff.toNat))
      (max (t.gateWidth.toNat - t.gateOffset.toNat : Int) 0 + t.preTrigger.toNat)) := by
  have hlargest : largest = 0xFFFFFFFF := rfl
  have hgate : max (t.gateWidth.toNat - t.gateOffset.toNat : Int) 0 =
      ((t.gateWidth.toNat - t.gateOffset.toNat : Nat) : Int) := by
    omega
  rw [toNat_window, hlargest, hgate]
  generalize t.gateWidth.toNat - t.gateOffset.toNat = gate
  omega

end TriggerSettings

/-- What the values of a board decide about its events. -/
structure Layout.Decided (V : BoardValues) (l : Layout) : Prop where
  ascending : l.groups.Pairwise (· < ·)
  mem_groups : ∀ g, g ∈ l.groups ↔ V.mask.toNat.testBit g.val = true
  kind : l.kind = match V.configuration.extras, V.configuration.waveform with
    | _, true => .waveform
    | true, false => .extended
    | false, false => .compact
  extras : l.format.extras = V.configuration.extras
  /-- Samples come in units of eight. -/
  samples : IsLeast {n | V.recordLength.toNat ≤ n ∧ 8 ∣ n} l.format.samples
  /-- Whatever readout an event of the format comes from, its record fills a slot. -/
  elementSize : ∀ bytes, ∀ raw ∈ decodedEvents bytes, raw.format = l.format →
    (Event.ofRaw l.kind raw).elementSize = l.elementSize
  windows : l.windows.map (fun w => (w.toNat : Int)) = l.groups.map fun g =>
    min 0xFFFFFFFF (2 * max
      (max (V.recordLength.toNat : Int)
        ((V.settings g).preTrigger.toNat + (V.settings g).holdOff.toNat))
      (max ((V.settings g).gateWidth.toNat - (V.settings g).gateOffset.toNat : Int) 0 +
        (V.settings g).preTrigger.toNat))

/-- The record of a decoded event has the size for the samples of its format. -/
theorem Event.elementSize_of_decoded {bytes : Bytes} {raw : RawEvent}
    (hraw : raw ∈ decodedEvents bytes) (kind : RecordKind) :
    (ofRaw kind raw).elementSize = kind.elementSize raw.format.samples := by
  obtain ⟨result, hresult, hok⟩ := List.mem_filterMap.1 hraw
  cases result with
  | error e => cases hok
  | ok raw' =>
    cases hok
    rw [elementSize_ofRaw, (proper_of_decode hresult).samples_eq, List.length_map,
      List.length_range]

namespace BoardValues

variable (V : BoardValues)

/-- The layout of values whose record length a format can describe. -/
theorem decided_ofRegisters (h : V.recordLength.toNat ≤ GroupFormat.maxSamples) :
    Layout.Decided V (.ofRegisters V.configuration.extras V.configuration.waveform V.recordLength
      ((GroupMask.groups V.mask.toNat).map fun g => (g, V.settings g))) := by
  generalize hl : Layout.ofRegisters _ _ _ _ = l
  have hgroups : l.groups = GroupMask.groups V.mask.toNat := by
    rw [← hl, Layout.ofRegisters, List.map_map]
    exact List.map_id _
  have hkind : l.kind = .ofFlags V.configuration.extras V.configuration.waveform := hl ▸ rfl
  have hformat : l.format = .withSamples V.configuration.extras V.recordLength.toNat := hl ▸ rfl
  have hsize : l.elementSize = l.kind.elementSize l.format.samples := hl ▸ rfl
  have hwindows : l.windows =
      (GroupMask.groups V.mask.toNat).map fun g => (V.settings g).window V.recordLength := by
    rw [← hl, Layout.ofRegisters]
    exact List.map_map
  refine
    { ascending := hgroups ▸ GroupMask.groups_ascending _
      mem_groups := fun g => hgroups ▸ GroupMask.mem_groups
      kind := ?_
      extras := hformat ▸ rfl
      samples := hformat ▸ GroupFormat.samples_withSamples _ h
      elementSize := fun bytes raw hraw hsame => ?_
      windows := ?_ }
  · rw [hkind, RecordKind.ofFlags]
    cases V.configuration.extras with
    | false => cases V.configuration.waveform <;> rfl
    | true => cases V.configuration.waveform <;> rfl
  · rw [Event.elementSize_of_decoded hraw, hsame, hsize]
  · rw [hwindows, hgroups, List.map_map]
    exact List.map_congr_left fun g _ => (V.settings g).natCast_toNat_window V.recordLength

/-- The three outcomes of the decision. -/
theorem layout_cases :
    (V.mask.toNat % 256 = 0 ∧ V.layout = .error .noGroups) ∨
    V.mask.toNat % 256 ≠ 0 ∧
      ((V.configuration.waveform = true ∧
          GroupFormat.maxSamples < (V .recordLength (some 0)).toNat ∧
          V.layout = .error (.recordLength (V .recordLength (some 0)) GroupFormat.maxSamples)) ∨
        ¬(V.configuration.waveform = true ∧
          GroupFormat.maxSamples < (V .recordLength (some 0)).toNat) ∧
          ∃ l, V.layout = .ok l ∧ l.Decided V) := by
  by_cases hmask : V.mask.toNat % 256 = 0
  · exact .inl ⟨hmask, if_pos (GroupMask.groups_eq_nil_iff.2 hmask)⟩
  refine .inr ⟨hmask, ?_⟩
  have hlayout : V.layout = ite _ _ _ := if_neg (mt GroupMask.groups_eq_nil_iff.1 hmask)
  by_cases hlong : GroupFormat.maxSamples < V.recordLength.toNat
  · have hwaveform : V.configuration.waveform = true := by
      by_contra hnot
      rw [recordLength, if_neg hnot] at hlong
      cases hlong
    have hlength : V.recordLength = V .recordLength (some 0) := if_pos hwaveform
    rw [← hlength]
    exact .inl ⟨hwaveform, hlong, hlayout.trans (if_pos hlong)⟩
  · refine .inr ⟨fun ⟨hwaveform, hmore⟩ => hlong ?_, _, hlayout.trans (if_neg hlong),
      V.decided_ofRegisters (Nat.le_of_not_lt hlong)⟩
    rwa [recordLength, if_pos hwaveform]

end BoardValues

/-! ## Main result -/

/-- Take a closed session of a board with charge integration firmware that answers the values `V`,
and a writer that takes the digitizer. To initialise it fails for want of groups exactly if the low
byte of the mask is zero; else it fails for its record length exactly if events carry samples and
this is longer than a format can describe; and else it answers, and the session has a layout that
is decided by the values. -/
theorem Session.initialise_decides {β ω : Type} [Board β] [DataWriter ω] {R : β → Prop}
    {V : BoardValues} (hV : Board.Answers R V) {s : Session β} {w w' : ω}
    (hstate : s.state = .closed) (hfirmware : Board.firmware s.board = .qdc) (hR : R s.board)
    (hadd : DataWriter.addDigitizer s.id w = .ok () w') :
    let tooLong := V.configuration.waveform = true ∧ 32760 < (V .recordLength (some 0)).toNat
    (V.mask.toNat % 256 = 0 ↔ ∃ left, initialise (s, w) = .error .noGroups left) ∧
      (V.mask.toNat % 256 ≠ 0 → (tooLong ↔ ∃ left, initialise (s, w) =
        .error (.recordLength (V .recordLength (some 0)) 32760) left)) ∧
      (V.mask.toNat % 256 ≠ 0 → ¬tooLong → ∃ s' layout, initialise (s, w) = .ok () (s', w') ∧
        s'.state = .initialised ∧ s'.layout = some layout ∧ layout.Decided V) := by
  intro tooLong
  have hsupported : (Board.firmware s.board).isSupported = true := by
    rw [hfirmware]
    rfl
  have hrun := initialise_layout hV hstate hsupported hR hadd
  obtain ⟨hnone, hlayout⟩ | ⟨hsome, ⟨hwaveform, hlong, hlayout⟩ | ⟨hshort, l, hlayout, hl⟩⟩ :=
    V.layout_cases
  · rw [hlayout] at hrun
    exact ⟨iff_of_true hnone hrun, fun hsome => absurd hnone hsome, fun hsome => absurd hnone hsome⟩
  · rw [hlayout] at hrun
    obtain ⟨left, hrun⟩ := hrun
    refine ⟨iff_of_false hsome ?_, fun _ => iff_of_true ⟨hwaveform, hlong⟩ ⟨left, hrun⟩,
      fun _ hshort => absurd ⟨hwaveform, hlong⟩ hshort⟩
    rintro ⟨_, h⟩
    cases h.symm.trans hrun
  · rw [hlayout] at hrun
    obtain ⟨s', hrun, hstate', hlayout'⟩ := hrun
    refine ⟨iff_of_false hsome ?_, fun _ => iff_of_false hshort ?_,
      fun _ _ => ⟨s', l, hrun, hstate', hlayout', hl⟩⟩
    all_goals
      rintro ⟨_, h⟩
      cases h.symm.trans hrun

/-- A scripted board has these registers, and no call is to fail. -/
def ScriptedBoard.Sure (registers : Registers) (b : ScriptedBoard) : Prop :=
  b.registers = registers ∧ ∀ m, b.failures m = []

theorem ScriptedBoard.note_sure (registers : Registers) (c : BoardCall) :
    Triple (Sure registers) (note c) (fun _ => Sure registers) fun _ _ => False := by
  refine .bind_get fun b ⟨hregisters, hfailures⟩ =>
    .bind (Q := fun _ => Sure registers) (fun _ _ => ⟨hregisters, fun m => ?_⟩) fun _ => ?_
  · dsimp only
    split
    · rw [hfailures]
      rfl
    · exact hfailures m
  · rw [hfailures]
    exact .pure _ fun _ h => h

/-- Then it answers what is in its registers. -/
theorem ScriptedBoard.answers (registers : Registers) :
    Board.Answers (Sure registers) fun f i => (registers.lookup (f, i)).getD 0 := by
  intro f i hneeds
  have hstatus : f ≠ .acquisitionStatus := by
    rintro rfl
    cases hneeds
  refine .bind (note_sure registers _) fun _ => .bind_get fun b hb => ?_
  refine .ite (fun h => absurd h hstatus) fun _ => .pure _ ?_
  rintro _ rfl
  exact ⟨by rw [hb.1], hb⟩

/-- A board whose groups 0 and 2 take almost as many samples as a format can describe. -/
def boardAtItsLimits : ScriptedBoard where
  registers := [((.boardConfiguration, none), 0x30000), ((.groupEnableMask, none), 0xFF05),
    ((.recordLength, some 0), 32753), ((.dppPreTriggerSize, some 0), 0xFFFFFFFF),
    ((.dppTriggerHoldOffWidth, some 0), 5), ((.dppGateWidth, some 2), 10),
    ((.dppGateOffset, some 2), 11), ((.dppPreTriggerSize, some 2), 40000)]

/-- Its slots are the largest that there are, and one window is as long as a register can say. -/
theorem boardAtItsLimits_decided :
    ∃ s layout, (∃ w : Totals, Session.initialise (Session.ofBoard boardAtItsLimits {}, {}) =
        .ok () (s, w)) ∧ s.layout = some layout ∧
      layout.Decided (fun f i => (boardAtItsLimits.registers.lookup (f, i)).getD 0) ∧
      layout.groups = [0, 2] ∧ layout.format.samples = 32760 ∧ layout.elementSize = 65550 ∧
      layout.windows = [0xFFFFFFFF, 80000] := by
  obtain ⟨-, -, hinitialise⟩ := Session.initialise_decides (w := ({} : Totals))
    (ScriptedBoard.answers boardAtItsLimits.registers) (s := Session.ofBoard boardAtItsLimits {})
    rfl rfl ⟨rfl, fun _ => rfl⟩ rfl
  obtain ⟨s, layout, hrun, -, hlayout, hdecided⟩ := hinitialise (by decide) (by decide)
  have hvalues : (match Session.initialise (Session.ofBoard boardAtItsLimits {}, ({} : Totals)) with
      | .ok _ (s, _) => s.layout
      | .error _ _ => none) = some (.ofRegisters true true 32753
        [(0, ⟨0xFFFFFFFF, 5, 0, 0⟩), (2, ⟨40000, 0, 10, 11⟩)]) := by
    decide +kernel
  rw [hrun] at hvalues
  obtain rfl := Option.some.inj (hlayout.symm.trans hvalues)
  exact ⟨s, _, ⟨_, hrun⟩, hlayout, hdecided, by decide, by decide, by decide, by decide⟩

end PulseDaq
