import PulseDaq.Board.Scripted
import PulseDaq.Proofs.Session.Buffers
import PulseDaq.Proofs.Session.Effects
import PulseDaq.Storage.Writer

/-!
# What a readout buffer has room for

A readout buffer is accepted if it has room for the acquisition windows of all groups, two samples a
word. The events of a readout do not have the size of a window but that of their format, which
carries samples in units of eight.

* `TriggerSettings.le_halfWindow`: a window is at least twice as long as the record.
* `Layout.eventBytes_le_iff`: windows have room for one event of every group, unless they are
  `Cramped`; only records of one, two or three samples can be (`Layout.MadeOf.of_cramped`).
* `Session.prepare_ok_iff`: the buffers that `prepare` accepts.
* `Session.prepare_room`: what is known of a readout buffer that was accepted.
-/

namespace PulseDaq

/-! ## Events and windows -/

/-- A record has a unit of eight samples even if it needs less than half of one. -/
theorem GroupFormat.sampleWords_withSamples (extras : Bool) {n : Nat}
    (hn : n ≤ GroupFormat.maxSamples) :
    (GroupFormat.withSamples extras n).sampleWords = 4 * ((n + 7) / 8) := by
  have hmost : GroupFormat.maxSamples = 32760 := by decide
  have hbits : Nat.pow 2 GroupFormat.sampleFieldBits = 4096 := by decide
  have hsize : UInt16.size = 65536 := rfl
  have hunits : (n + 7) / 8 < 4096 := by omega
  have hfield : (GroupFormat.withSamples extras n).sampleField.toNat = (n + 7) / 8 := by
    simp only [withSamples, ofField, hbits, UInt16.toNat_ofNat']
    omega
  have hwaveform : (GroupFormat.withSamples extras n).waveform = decide (0 < n) := rfl
  unfold GroupFormat.sampleWords
  rw [hfield, hwaveform]
  split
  next => rfl
  next h =>
    have : n = 0 := by simpa using h
    omega

/-- The sample words of an event over the full window of a group. -/
def Layout.halfWindow (window : UInt32) : Nat :=
  (window.toNat + 1) / 2

/-- A window is at least twice as long as the record. -/
theorem TriggerSettings.le_halfWindow (t : TriggerSettings) {recordLength : UInt32}
    (h : recordLength.toNat ≤ GroupFormat.maxSamples) :
    recordLength.toNat ≤ Layout.halfWindow (t.window recordLength) := by
  have hmost : GroupFormat.maxSamples = 32760 := by decide
  have hlargest : TriggerSettings.largest = 4294967295 := by decide
  unfold Layout.halfWindow TriggerSettings.window
  rw [UInt32.toNat_ofNat']
  omega

namespace Layout

variable {V : FunctionId → Option UInt32 → UInt32 → Prop} {l : Layout}

/-- Bytes of a board aggregate with one event in every enabled group. -/
def eventBytes (l : Layout) : Nat :=
  4 * (Decoder.headerWords + l.groups.length * (Decoder.headerWords + l.format.stride))

/-- The sample words of events over the full windows of all groups. -/
def windowSampleWords (l : Layout) : Nat :=
  l.windows.foldr (fun w n => halfWindow w + n) 0

/-- Events have a single unit of samples, and the windows of the groups together have fewer than
one. -/
def Cramped (l : Layout) : Prop :=
  l.format.sampleWords = 4 ∧ l.windowSampleWords < 4 * l.groups.length

instance (l : Layout) : Decidable l.Cramped :=
  inferInstanceAs (Decidable (_ ∧ _))

/-- The windows differ from the events in their sample words only. -/
theorem windowBytes_eq (l : Layout) :
    l.windowBytes = 4 * (Decoder.headerWords +
      (l.windows.length * (Decoder.headerWords + l.fixedWords) + l.windowSampleWords)) := by
  have hwords (windows : List UInt32) :
      windows.foldr (fun w n => l.windowWords w + n) 0 =
        windows.length * (Decoder.headerWords + l.fixedWords) +
          windows.foldr (fun w n => halfWindow w + n) 0 := by
    induction windows with
    | nil => simp
    | cons w windows ih =>
      have hone : l.windowWords w = Decoder.headerWords + l.fixedWords + halfWindow w := rfl
      rw [List.foldr_cons, List.foldr_cons, List.length_cons, Nat.succ_mul, ih, hone]
      omega
  rw [windowBytes, hwords, windowSampleWords]

theorem eventBytes_le_windowBytes (h : l.windows.length = l.groups.length) :
    l.eventBytes ≤ l.windowBytes ↔
      l.groups.length * l.format.sampleWords ≤ l.windowSampleWords := by
  have hstride : l.format.stride = l.fixedWords + l.format.sampleWords := by
    unfold fixedWords GroupFormat.stride
    omega
  rw [windowBytes_eq, eventBytes, h, hstride, ← Nat.add_assoc, Nat.mul_add l.groups.length]
  omega

/-- What every window has at least, the windows have together. -/
theorem length_mul_le {n : Nat} {windows : List UInt32} (h : ∀ w ∈ windows, n ≤ halfWindow w) :
    windows.length * n ≤ windows.foldr (fun w n => halfWindow w + n) 0 := by
  induction windows with
  | nil => simp
  | cons w windows ih =>
    have hw := h w List.mem_cons_self
    have hrest := ih fun w' hw' => h w' (.tail _ hw')
    rw [List.length_cons, Nat.succ_mul, List.foldr_cons]
    omega

theorem MadeOf.length_windows (h : l.MadeOf V) : l.windows.length = l.groups.length := by
  obtain ⟨configuration, mask, recordLength, settings, -, -, -, -, -, -, rfl⟩ := h
  simp [ofRegisters]

/-- The record length that the board has answered bounds the windows from below. -/
theorem MadeOf.recordLength (h : l.MadeOf V) :
    ∃ recordLength : UInt32, (recordLength = 0 ∨ V .recordLength (some 0) recordLength) ∧
      l.format.sampleWords = 4 * ((recordLength.toNat + 7) / 8) ∧
      l.groups.length * recordLength.toNat ≤ l.windowSampleWords := by
  have hlength := h.length_windows
  obtain ⟨configuration, mask, recordLength, settings, -, -, hanswer, hmost, -, -, rfl⟩ := h
  refine ⟨recordLength, ?_, GroupFormat.sampleWords_withSamples _ hmost, ?_⟩
  · split at hanswer
    · exact .inr hanswer
    · exact .inl hanswer
  · rw [← hlength]
    refine length_mul_le fun w hw => ?_
    obtain ⟨⟨g, t⟩, -, rfl⟩ := List.mem_map.1 hw
    exact t.le_halfWindow hmost

/-- The windows of the groups have room for one event each, unless they are cramped. From four
samples on, a record has at least half the samples of its format. -/
theorem eventBytes_le_iff (h : l.MadeOf V) : l.eventBytes ≤ l.windowBytes ↔ ¬l.Cramped := by
  rw [eventBytes_le_windowBytes h.length_windows, Cramped, Nat.mul_comm 4]
  obtain ⟨recordLength, -, hwords, hwindows⟩ := h.recordLength
  by_cases hshort : l.format.sampleWords = 4
  · rw [hshort]
    omega
  · have hle : l.format.sampleWords ≤ recordLength.toNat := by omega
    have := Nat.mul_le_mul_left l.groups.length hle
    omega

/-- Only records of fewer than four samples are cramped. -/
theorem MadeOf.of_cramped (h : l.MadeOf V) (hcramped : l.Cramped) :
    ∃ n : UInt32, V .recordLength (some 0) n ∧ 0 < n.toNat ∧ n.toNat < 4 := by
  obtain ⟨n, hanswer, hwords, hwindows⟩ := h.recordLength
  obtain ⟨hunit, hless⟩ := hcramped
  have hpos : 0 < n.toNat := by omega
  have hshort : n.toNat < 4 := by
    by_contra hlong
    have := Nat.mul_le_mul_left l.groups.length (Nat.le_of_not_lt hlong)
    omega
  refine ⟨n, hanswer.resolve_left ?_, hpos, hshort⟩
  rintro rfl
  exact absurd hpos (Nat.lt_irrefl 0)

end Layout

/-! ## The check -/

namespace Session

variable {β ω : Type} [Board β] {s s' : Session β} {layout : Layout}

/-- The session has the buffers of a readout that has room for its windows. -/
def Supplied (s : Session β) (layout : Layout) (s' : Session β) : Prop :=
  ∃ readout board records, Board.allocate s.board = .ok readout board ∧
    layout.windowBytes ≤ readout.capacity ∧
    recordsFor s.options layout readout.capacity = .ok records ∧
    s' = { s with board, readout := some readout, records := some records, state := .ready }

theorem allocate_triple (s : Session β) :
    Triple (· = s) (once (call Board.allocate))
      (fun readout s' => ∃ board, Board.allocate s.board = .ok readout board ∧
        s' = { s with board }) fun _ _ => True := by
  refine .adaptExcept ?_
  rintro s' rfl
  unfold call
  cases h : Board.allocate s'.board with
  | ok readout board => exact ⟨board, rfl, rfl⟩
  | error e board => trivial

theorem supplied_of_prepare (hlayout : s.layout = some layout) :
    Triple (· = s) prepare (fun _ => Supplied s layout) fun _ _ => True := by
  refine .bind (.imp (require_triple .prepare .initialised) (fun _ s' (h : _ ∧ s' = s) => h.2)
    fun _ _ _ => trivial) fun _ => .bind_get fun s₀ h₀ => ?_
  subst h₀
  simp only [hlayout]
  refine .bind (allocate_triple s₀) fun readout => .ite (fun _ => ?_) fun hroom => ?_
  · exact .bind (Q := fun _ _ => True) (fun _ _ => by split <;> trivial) fun _ =>
      .throw _ fun _ _ => trivial
  · refine .bind (.adaptExcept (.ofExcept _ fun _ _ _ _ => trivial)) fun records =>
      .lift fun hrecords => .modify ?_
    rintro _ ⟨board, hallocate, rfl⟩
    exact ⟨readout, board, records, hallocate, Nat.le_of_not_lt hroom, hrecords, rfl⟩

/-- The buffers that are accepted, and what is made of them. -/
theorem prepare_ok_iff (hstate : s.state = .initialised) (hlayout : s.layout = some layout) :
    prepare s = .ok () s' ↔ Supplied s layout s' := by
  refine ⟨fun hrun => (supplied_of_prepare hlayout).ok rfl hrun, ?_⟩
  rintro ⟨readout, board, records, hallocate, hroom, hrecords, rfl⟩
  have hcall : once (call Board.allocate) s = .ok readout { s with board } := by
    simp only [once, call, EStateM.adaptExcept, hallocate]
  refine (bind_of_ok (require_ok hstate _)).trans ((bind_of_ok rfl).trans ?_)
  simp only [hlayout]
  refine (bind_of_ok hcall).trans ?_
  rw [if_neg (Nat.not_lt.2 hroom), hrecords, ← hlayout]
  rfl

/-! ## Main result -/

/-- A session that was initialised has a layout made of values that its board has answered. Its next
step accepts just those readout buffers that have room for the windows of the layout. Then there is
room for one event of every enabled group, too, unless the layout is cramped: if the record length
that the board has answered is one, two or three samples, so that events are larger than windows,
buffers that are accepted may be too small for them. -/
theorem prepare_room [DataWriter ω] {R : β → Prop}
    {V : FunctionId → Option UInt32 → UInt32 → Prop}
    (hget : ∀ f i, Triple R (Board.get f i) (fun v b => V f i v ∧ R b) fun _ => R)
    {s₀ s : Session β} {w₀ w : ω} (hR : R s₀.board)
    (hinitialise : initialise (s₀, w₀) = .ok () (s, w)) :
    ∃ layout, s.layout = some layout ∧ layout.MadeOf V ∧
      (∀ readout board, Board.allocate s.board = .ok readout board →
        ((∃ s', prepare s = .ok () s') ↔ layout.windowBytes ≤ readout.capacity)) ∧
      (∀ s', prepare s = .ok () s' → s'.layout = some layout ∧
        ∃ readout, s'.readout = some readout ∧ layout.windowBytes ≤ readout.capacity ∧
          (¬layout.Cramped → layout.eventBytes ≤ readout.capacity)) ∧
      (layout.Cramped → layout.windowBytes < layout.eventBytes ∧
        ∃ n : UInt32, V .recordLength (some 0) n ∧ 0 < n.toNat ∧ n.toNat < 4) := by
  have hblind : Blind fun _ : Session β => True := fun _ _ _ _ => trivial
  obtain ⟨s₁, layout, -, -, hmade, rfl, -⟩ :=
    (initialise_triple hblind hget w₀).ok ⟨⟨trivial, hR⟩, rfl⟩ hinitialise
  refine ⟨layout, rfl, hmade, fun readout board hallocate => ⟨?_, fun hroom => ?_⟩,
    fun s' hprepare => ?_, fun hcramped => ⟨?_, hmade.of_cramped hcramped⟩⟩
  · rintro ⟨s', hprepare⟩
    obtain ⟨accepted, _, _, haccepted, hroom, -, -⟩ := (prepare_ok_iff rfl rfl).1 hprepare
    obtain ⟨rfl, -⟩ := EStateM.Result.ok.inj (haccepted.symm.trans hallocate)
    exact hroom
  · obtain ⟨records, hrecords⟩ :=
      exists_recordsFor s₁.options readout.capacity hmade.elementSize_pos
    exact ⟨_, (prepare_ok_iff rfl rfl).2
      ⟨readout, board, records, hallocate, hroom, hrecords, rfl⟩⟩
  · obtain ⟨readout, board, records, -, hroom, -, rfl⟩ := (prepare_ok_iff rfl rfl).1 hprepare
    refine ⟨rfl, readout, rfl, hroom, fun hroomy => ?_⟩
    exact Nat.le_trans ((Layout.eventBytes_le_iff hmade).2 hroomy) hroom
  · exact Nat.lt_of_not_le fun hle => (Layout.eventBytes_le_iff hmade).1 hle hcramped

end Session

/-- Noting a call changes no register. -/
theorem ScriptedBoard.note_registers (registers : Registers) (c : BoardCall) :
    Preserves (fun b : ScriptedBoard => b.registers = registers) (note c) := by
  refine Triple.bind_get fun b hb =>
    .bind (Q := fun _ left => left.registers = registers) (by exact fun _ _ => hb) fun _ => ?_
  split
  · exact Preserves.throw _
  · exact Preserves.pure _

/-- A scripted board answers what is in its registers, but for its status. -/
theorem ScriptedBoard.get_triple (registers : Registers) (f : FunctionId) (i : Option UInt32) :
    Triple (fun b : ScriptedBoard => b.registers = registers) (Board.get f i)
      (fun v b => (f ≠ .acquisitionStatus → v = (registers.lookup (f, i)).getD 0) ∧
        b.registers = registers)
      fun _ b => b.registers = registers := by
  refine .bind (note_registers registers _) fun _ => .bind_get fun b hb => ?_
  refine .ite (fun hstatus => ?_) fun _ => ?_
  · rintro _ rfl
    exact ⟨fun hne => absurd hstatus hne, hb⟩
  · rintro _ rfl
    exact ⟨fun _ => by rw [← hb], hb⟩

/-- A board with one group and records of one sample, which hands out buffers of 28 bytes. -/
def boardOfOneSample : ScriptedBoard where
  registers := [((.boardConfiguration, none), 0x10000), ((.groupEnableMask, none), 1),
    ((.recordLength, some 0), 1)]
  readoutBytes := 28

/-- Its buffers are accepted, although they do not hold a single event, which takes 40 bytes. -/
theorem boardOfOneSample_cramped :
    ∃ layout s s' readout,
      (∃ w : Totals, Session.initialise (Session.ofBoard boardOfOneSample {}, {}) = .ok () (s, w)) ∧
      Session.prepare s = .ok () s' ∧ s'.layout = some layout ∧ s'.readout = some readout ∧
      layout.Cramped ∧ readout.capacity < layout.eventBytes := by
  have hlayout : (match Session.initialise (Session.ofBoard boardOfOneSample {}, ({} : Totals)) with
      | .ok _ (s, _) => s.layout
      | .error _ _ => none) = some (.ofRegisters false true 1 [(0, ⟨0, 0, 0, 0⟩)]) := by
    decide +kernel
  have hreadout : (match
        Session.initialise (Session.ofBoard boardOfOneSample {}, ({} : Totals)) with
      | .ok _ (s, _) => match Session.prepare s with
        | .ok _ s => s.readout
        | .error _ _ => none
      | .error _ _ => none) = some ⟨28, []⟩ := by
    decide +kernel
  cases hinitialise : Session.initialise (Session.ofBoard boardOfOneSample {}, ({} : Totals)) with
  | error e s =>
    rw [hinitialise] at hlayout
    cases hlayout
  | ok _ s =>
    obtain ⟨s, w⟩ := s
    rw [hinitialise] at hlayout hreadout
    cases hprepare : Session.prepare s with
    | error e s' =>
      simp only [hprepare] at hreadout
      cases hreadout
    | ok _ s' =>
      simp only [hprepare] at hreadout
      obtain ⟨layout, hlayout', -, -, haccepted, hcramped⟩ := Session.prepare_room
        (ScriptedBoard.get_triple boardOfOneSample.registers) rfl hinitialise
      obtain rfl := Option.some.inj (hlayout'.symm.trans hlayout)
      obtain ⟨hkept, -⟩ := haccepted s' hprepare
      have hlarger := (hcramped (by decide)).1
      refine ⟨_, s, s', _, ⟨w, rfl⟩, hprepare, hkept, hreadout, by decide, ?_⟩
      exact Nat.lt_of_le_of_lt (by decide) hlarger

end PulseDaq
