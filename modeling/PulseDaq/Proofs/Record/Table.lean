import PulseDaq.Proofs.Lists
import PulseDaq.Proofs.Text.Decimal
import PulseDaq.Record.Table

/-!
# What a table of events tells

A reader of tables splits a text into lines and lines into columns, and reads every column as the
value that it stands for. It shows that nothing is lost, as long as an interval without a first
sample has no last one either (`Event.Whole`). All events of a readout are so (`Event.whole_ofRaw`).

* `Event.ofColumns?_columns`: an event is read back from its columns.
* `Event.bare_columns`: no column has a character in it that ends columns or lines, or that would
  have to be quoted.
* `Table.splitOn_lines`, `Table.read?_lines`: lines can be told apart, and their events read back.
* `Table.Writer.events_fitting`, `Table.Writer.events_misfit`: what is written of events whose lines
  have as many columns as they must, and behind them of one whose line does not.
* `Table.render_lossless`: the main result.
-/

namespace PulseDaq

/-! ## Whole events -/

/-- If the first sample is unset, so is the last. -/
def Interval.Whole (i : Interval) : Prop :=
  i.start = unset → i.stop = unset

instance (i : Interval) : Decidable i.Whole :=
  inferInstanceAs (Decidable (_ → _))

theorem Interval.Whole.eq_unset {i : Interval} (h : i.Whole) (hset : i.isSet = false) : i = {} := by
  have hstart : i.start = unset := by simpa [isSet] using hset
  obtain ⟨start, stop⟩ := i
  rw [show start = unset from hstart, show stop = unset from h hstart]

/-- A marker that was seen has its first sample set before its last. -/
theorem Interval.whole_observe (i : Interval) (index : UInt16) : (i.observe index).Whole := by
  intro hstart
  show index = unset
  by_cases h : i.start = unset
  · simpa [observe, h] using hstart
  · exact absurd hstart (by simp [observe, h])

/-- The intervals of all markers are whole. -/
structure Markers.Whole (m : Markers) : Prop where
  gate : m.gate.Whole
  holdoff : m.holdoff.Whole
  overthreshold : m.overthreshold.Whole

namespace Markers.Whole

theorem observe {m : Markers} (h : m.Whole) (index : UInt16) (s : Sample) :
    (m.observe index s).Whole := by
  refine ⟨?_, ?_, ?_⟩ <;> simp only [Markers.observe] <;> split
  · exact Interval.whole_observe _ index
  · exact h.gate
  · exact Interval.whole_observe _ index
  · exact h.holdoff
  · exact Interval.whole_observe _ index
  · exact h.overthreshold

theorem scan {m : Markers} (h : m.Whole) (index : Nat) (samples : List Sample) :
    (m.scan index samples).Whole := by
  induction samples generalizing m index with
  | nil => exact h
  | cons s rest ih => exact ih (h.observe _ s) _

end Markers.Whole

namespace Event

/-- The intervals of an event, which only waveforms have. -/
def intervals : Event → List Interval
  | waveform w => [w.gate, w.holdoff, w.overthreshold]
  | _ => []

/-- Each of the event's intervals has a first sample, or else no last one. -/
def Whole (e : Event) : Prop :=
  ∀ i ∈ e.intervals, i.Whole

instance (e : Event) : Decidable e.Whole :=
  inferInstanceAs (Decidable (∀ i ∈ e.intervals, i.Whole))

/-- The events of a readout are whole. -/
theorem whole_ofRaw (kind : RecordKind) (raw : RawEvent) : (ofRaw kind raw).Whole := by
  cases kind with
  | compact => exact List.forall_mem_nil _
  | extended => exact List.forall_mem_nil _
  | waveform =>
    have hunset : ({} : Interval).Whole := fun _ => rfl
    have hwhole := Markers.Whole.scan (m := {}) ⟨hunset, hunset, hunset⟩ 0 raw.samples
    exact List.forall_mem_cons.2 ⟨hwhole.gate, List.forall_mem_cons.2
      ⟨hwhole.holdoff, List.forall_mem_singleton.2 hwhole.overthreshold⟩⟩

end Event

/-! ## Reading columns -/

namespace Table

/-- The value that has these digits. -/
def value? {α : Type} (ofNat : Nat → α) (toNat : α → Nat) (digits : List Char) : Option α :=
  let v := ofNat (Nat.ofDigitChars 10 digits 0)
  if Nat.toDigits 10 (toNat v) = digits then some v else none

theorem value?_toDigits {α : Type} {ofNat : Nat → α} {toNat : α → Nat}
    (h : ∀ v, ofNat (toNat v) = v) (v : α) :
    value? ofNat toNat (Nat.toDigits 10 (toNat v)) = some v := by
  simp [value?, h]

/-- A number of 16 bits. -/
def word? : List Char → Option UInt16 :=
  value? UInt16.ofNat UInt16.toNat

@[simp] theorem word?_toDigits (v : UInt16) : word? (Nat.toDigits 10 v.toNat) = some v :=
  value?_toDigits (fun _ => UInt16.ofNat_toNat) v

end Table

open Table

namespace Interval

/-- The interval that a column stands for. -/
def ofText? (text : List Char) : Option Interval :=
  if text = ['-'] then
    some {}
  else
    match text.splitOn '-' with
    | [start, stop] => do return { start := ← word? start, stop := ← word? stop }
    | _ => none

theorem toList_text_of_set {i : Interval} (h : i.isSet = true) :
    i.text.toList = Nat.toDigits 10 i.start.toNat ++ '-' :: Nat.toDigits 10 i.stop.toNat := by
  simp [text, h]
  rfl

theorem toList_text_of_unset {i : Interval} (h : i.isSet = false) : i.text.toList = ['-'] := by
  simp [text, h]

theorem ofText?_text {i : Interval} (h : i.Whole) : ofText? i.text.toList = some i := by
  cases hset : i.isSet with
  | false =>
    rw [toList_text_of_unset hset, h.eq_unset hset]
    rfl
  | true =>
    rw [toList_text_of_set hset]
    have hne : Nat.toDigits 10 i.start.toNat ++ '-' :: Nat.toDigits 10 i.stop.toNat ≠ ['-'] := by
      intro heq
      have hlength := congrArg List.length heq
      have hstart := List.length_pos_iff.2 (Nat.toDigits_ne_nil (b := 10) (n := i.start.toNat))
      simp at hlength
      omega
    have hsplit : (Nat.toDigits 10 i.start.toNat ++ '-' :: Nat.toDigits 10 i.stop.toNat).splitOn '-'
        = [Nat.toDigits 10 i.start.toNat, Nat.toDigits 10 i.stop.toNat] := by
      rw [List.splitOn_append_cons_self_of_not_mem (notMem_toDigits rfl),
        List.splitOn_eq_singleton (notMem_toDigits rfl)]
    simp [ofText?, hne, hsplit]

end Interval

namespace Table

/-- The samples that a column stands for. -/
def samplesOfText? (text : List Char) : Option (List UInt16) :=
  if text = [] then some [] else (text.splitOn ',').mapM word?

/-- The samples of a waveform in its column. -/
theorem toList_samples (samples : List UInt16) :
    (",".intercalate (samples.map fun s => s.toNat.repr)).toList =
      [','].intercalate (samples.map fun s => Nat.toDigits 10 s.toNat) := by
  simp [Function.comp_def]

theorem samplesOfText?_samples (samples : List UInt16) :
    samplesOfText? ([','].intercalate (samples.map fun s => Nat.toDigits 10 s.toNat)) =
      some samples := by
  by_cases hnil : samples = []
  · subst hnil
    rfl
  · have hsplit : ([','].intercalate (samples.map fun s => Nat.toDigits 10 s.toNat)).splitOn ',' =
        samples.map fun s => Nat.toDigits 10 s.toNat :=
      List.splitOn_intercalate ',' (by simp [notMem_toDigits]) (by simpa using hnil)
    -- The digits of a sample are never missing, so the text of some samples is not empty.
    have hne : [','].intercalate (samples.map fun s => Nat.toDigits 10 s.toNat) ≠ [] := by
      intro hempty
      rw [hempty, List.splitOn_nil] at hsplit
      have hmem : ([] : List Char) ∈ samples.map fun s => Nat.toDigits 10 s.toNat := by
        simp [← hsplit]
      obtain ⟨s, -, hs⟩ := List.mem_map.1 hmem
      exact Nat.toDigits_ne_nil hs
    rw [samplesOfText?, if_neg hne, hsplit]
    exact mapM_map_eq_some fun s _ => word?_toDigits s

end Table

namespace Event

/-- The event that the columns of a line stand for. -/
def ofColumns? : List (List Char) → Option Event
  | [channel, time, charge] => do
    return compact
      { time := ← value? UInt32.ofNat UInt32.toNat time
        channel := ← word? channel
        charge := ← word? charge }
  | [channel, time, charge, baseline] => do
    return extended
      { time := ← value? UInt64.ofNat UInt64.toNat time
        channel := ← word? channel
        charge := ← word? charge
        baseline := ← word? baseline }
  | [channel, time, charge, baseline, trigger, gate, holdoff, overthreshold, samples] => do
    return waveform
      { time := ← value? UInt64.ofNat UInt64.toNat time
        channel := ← word? channel
        charge := ← word? charge
        baseline := ← word? baseline
        trigger := ← word? trigger
        gate := ← Interval.ofText? gate
        holdoff := ← Interval.ofText? holdoff
        overthreshold := ← Interval.ofText? overthreshold
        samples := ← samplesOfText? samples }
  | _ => none

/-- An event is read back from its columns. -/
theorem ofColumns?_columns {e : Event} (h : e.Whole) :
    ofColumns? (e.columns.map String.toList) = some e := by
  have htime32 := value?_toDigits fun v => UInt32.ofNat_toNat (x := v)
  have htime64 := value?_toDigits fun v => UInt64.ofNat_toNat (x := v)
  cases e with
  | compact e => simp [columns, commonColumns, channel, time, charge, ofColumns?, htime32]
  | extended e => simp [columns, commonColumns, channel, time, charge, ofColumns?, htime64]
  | waveform e =>
    have hgate : e.gate.Whole := h _ (by simp [intervals])
    have hholdoff : e.holdoff.Whole := h _ (by simp [intervals])
    have hoverthreshold : e.overthreshold.Whole := h _ (by simp [intervals])
    simp [columns, commonColumns, channel, time, charge, ofColumns?, htime64,
      Interval.ofText?_text hgate, Interval.ofText?_text hholdoff,
      Interval.ofText?_text hoverthreshold, samplesOfText?_samples, Function.comp_def]

end Event

/-! ## Separating columns and lines -/

/-- What holds of the separator and of all parts holds of the parts joined by it. -/
theorem forall_mem_intercalate {α : Type} {P : α → Prop} {sep : List α} {parts : List (List α)}
    (hsep : ∀ a ∈ sep, P a) (hparts : ∀ part ∈ parts, ∀ a ∈ part, P a) :
    ∀ a ∈ sep.intercalate parts, P a := by
  induction parts with
  | nil => simp
  | cons part parts ih =>
    obtain ⟨hpart, hrest⟩ := List.forall_mem_cons.1 hparts
    cases parts with
    | nil => simpa using hpart
    | cons next parts =>
      rw [List.intercalate_cons_cons]
      simp only [List.forall_mem_append]
      exact ⟨⟨hpart, hsep⟩, ih hrest⟩

namespace Table

/-- Characters that end a column or a line, or for which a column would have to be quoted. -/
def specials : List Char :=
  ['\t', '\n', '\r', '"']

/-- A column of digits, and of what joins the numbers in it. -/
def Bare (column : String) : Prop :=
  ∀ c ∈ column.toList, c.isDigit = true ∨ c = '-' ∨ c = ','

theorem Bare.notMem_toList {column : String} (h : Bare column) {c : Char} (hc : c ∈ specials) :
    c ∉ column.toList := by
  intro hmem
  have hcolumn := h c hmem
  simp only [specials, List.mem_cons, List.not_mem_nil, or_false] at hc
  rcases hc with rfl | rfl | rfl | rfl <;> simp at hcolumn

theorem bare_repr (n : Nat) : Bare n.repr := by
  intro c hc
  rw [Nat.toList_repr] at hc
  exact .inl (isDigit_of_mem_toDigits hc)

theorem bare_interval (i : Interval) : Bare i.text := by
  intro c hc
  cases hset : i.isSet with
  | false =>
    rw [Interval.toList_text_of_unset hset, List.mem_singleton] at hc
    exact .inr (.inl hc)
  | true =>
    rw [Interval.toList_text_of_set hset, List.mem_append, List.mem_cons] at hc
    rcases hc with hstart | hdash | hstop
    · exact .inl (isDigit_of_mem_toDigits hstart)
    · exact .inr (.inl hdash)
    · exact .inl (isDigit_of_mem_toDigits hstop)

theorem bare_samples (samples : List UInt16) :
    Bare (",".intercalate (samples.map fun s => s.toNat.repr)) := by
  unfold Bare
  rw [toList_samples]
  refine forall_mem_intercalate (by simp) fun part hpart c hc => ?_
  obtain ⟨s, -, rfl⟩ := List.mem_map.1 hpart
  exact .inl (isDigit_of_mem_toDigits hc)

end Table

/-- The number of columns of the events of a kind. -/
def RecordKind.columns : RecordKind → Nat
  | compact => 3
  | extended => 4
  | waveform => 9

theorem RecordKind.columns_inj {kind kind' : RecordKind} (h : kind.columns = kind'.columns) :
    kind = kind' := by
  cases kind <;> cases kind' <;> simp_all [columns]

namespace Event

theorem length_columns (e : Event) : e.columns.length = e.kind.columns := by
  cases e <;> rfl

theorem bare_columns (e : Event) : ∀ column ∈ e.columns, Bare column := by
  cases e <;> simp [columns, commonColumns, bare_repr, bare_interval, bare_samples]

/-- The line of an event. -/
def line (e : Event) : String :=
  "\t".intercalate e.columns

theorem toList_line (e : Event) :
    e.line.toList = ['\t'].intercalate (e.columns.map String.toList) := by
  simp [line]

/-- The columns can be told apart. -/
theorem splitOn_line (e : Event) : e.line.toList.splitOn '\t' = e.columns.map String.toList := by
  rw [toList_line]
  refine List.splitOn_intercalate '\t' (fun part hpart => ?_) ?_
  · obtain ⟨column, hcolumn, rfl⟩ := List.mem_map.1 hpart
    exact (e.bare_columns column hcolumn).notMem_toList (by simp [specials])
  · cases e <;> simp [columns, commonColumns]

/-- A line does not go on in the next one. -/
theorem newline_notMem_line (e : Event) : '\n' ∉ e.line.toList := by
  rw [toList_line]
  refine fun hmem =>
    forall_mem_intercalate (P := (· ≠ '\n')) (by simp) (fun part hpart c hc => ?_) _ hmem rfl
  obtain ⟨column, hcolumn, rfl⟩ := List.mem_map.1 hpart
  rintro rfl
  exact (e.bare_columns column hcolumn).notMem_toList (by simp [specials]) hc

end Event

namespace Table

/-- Each event in a line of its own. -/
def lines (events : List Event) : String :=
  String.join (events.map fun e => e.line ++ "\n")

theorem lines_cons (e : Event) (events : List Event) :
    lines (e :: events) = e.line ++ "\n" ++ lines events := by
  simp [lines]

/-- The lines can be told apart, and nothing is behind the last one. -/
theorem splitOn_lines (events : List Event) :
    (lines events).toList.splitOn '\n' = events.map (fun e => e.line.toList) ++ [[]] := by
  induction events with
  | nil => rfl
  | cons e events ih =>
    have htext : (lines (e :: events)).toList = e.line.toList ++ '\n' :: (lines events).toList := by
      simp [lines_cons]
    rw [htext, List.splitOn_append_cons_self_of_not_mem e.newline_notMem_line, ih]
    rfl

/-- The events of the complete lines of a table. -/
def read? (text : String) : Option (List Event) :=
  (text.toList.splitOn '\n').dropLast.mapM fun line => Event.ofColumns? (line.splitOn '\t')

theorem read?_lines {events : List Event} (h : ∀ e ∈ events, e.Whole) :
    read? (lines events) = some events := by
  rw [read?, splitOn_lines, List.dropLast_concat]
  refine mapM_map_eq_some fun e he => ?_
  rw [Event.splitOn_line]
  exact Event.ofColumns?_columns (h e he)

/-! ## Lines that fit -/

namespace Writer

/-- The lines of `events` may all be written: any may, or all of them and the line before them, if
there is one, have as many columns. -/
def Fits (w : Writer) (events : List Event) : Prop :=
  w.flexible = true ∨
    ∃ n, (∀ width ∈ w.width, width = n) ∧ ∀ e ∈ events, e.columns.length = n

/-- The table with the lines of `events`. -/
def written (w : Writer) (events : List Event) : Writer :=
  { w with
    text := w.text ++ lines events
    width := w.width <|> events.head?.map fun e => e.columns.length }

section

variable {w : Writer} {e : Event} {events : List Event}

theorem Fits.head (h : w.Fits (e :: events)) : w.Fits [e] := by
  rcases h with hflexible | ⟨n, hwidth, hevents⟩
  · exact .inl hflexible
  · exact .inr ⟨n, hwidth, List.forall_mem_singleton.2 (hevents e List.mem_cons_self)⟩

theorem Fits.tail (h : w.Fits (e :: events)) : (w.written [e]).Fits events := by
  rcases h with hflexible | ⟨n, hwidth, hevents⟩
  · exact .inl hflexible
  · obtain ⟨he, hevents⟩ := List.forall_mem_cons.1 hevents
    refine .inr ⟨n, ?_, hevents⟩
    cases hw : w.width with
    | none => simpa [written, hw] using he
    | some width => simpa [written, hw] using hwidth

theorem written_cons (w : Writer) (e : Event) (events : List Event) :
    (w.written [e]).written events = w.written (e :: events) := by
  cases hwidth : w.width <;> simp [written, hwidth, lines, String.append_assoc]

theorem line_fitting (h : w.Fits [e]) : w.line e.columns = (.ok (), w.written [e]) := by
  cases hwidth : w.width with
  | none => simp [line, written, hwidth, lines, Event.line, String.append_assoc]
  | some width =>
    have hfits : w.flexible = true ∨ width = e.columns.length := by
      rcases h with hflexible | ⟨n, hn, he⟩
      · exact .inl hflexible
      · exact .inr ((hn width hwidth).trans (he e List.mem_cons_self).symm)
    simp [line, written, hwidth, hfits, lines, Event.line, String.append_assoc]

/-- A line with another number of columns than the one before it is not ended. -/
theorem line_misfit {width : Nat} (hflexible : w.flexible = false) (hwidth : w.width = some width)
    (hne : width ≠ e.columns.length) :
    w.line e.columns =
      (.error (.columns width e.columns.length), { w with text := w.text ++ e.line }) := by
  simp [line, hflexible, hwidth, hne, Event.line]

/-- Events that fit are all written. -/
theorem events_fitting (h : w.Fits events) : w.events events = (.ok (), w.written events) := by
  induction events generalizing w with
  | nil => cases hwidth : w.width <;> simp [Writer.events, written, lines, ← hwidth]
  | cons e events ih =>
    rw [Writer.events, line_fitting h.head]
    exact (ih h.tail).trans (by rw [written_cons])

/-- Behind events that fit, one that does not ends the table. -/
theorem events_misfit {bad : Event} {after : List Event} {width : Nat}
    (hflexible : w.flexible = false) (h : w.Fits events)
    (hwidth : (w.written events).width = some width) (hne : width ≠ bad.columns.length) :
    w.events (events ++ bad :: after) = (.error (.columns width bad.columns.length),
      { w.written events with text := (w.written events).text ++ bad.line }) := by
  induction events generalizing w with
  | nil =>
    have hunchanged : w.written [] = w := by cases w; simp [written, lines]
    rw [hunchanged] at hwidth ⊢
    rw [List.nil_append, Writer.events, line_misfit hflexible hwidth hne]
  | cons e events ih =>
    rw [List.cons_append, Writer.events, line_fitting h.head]
    rw [← written_cons w e events] at hwidth ⊢
    exact ih (w := w.written [e]) hflexible h.tail hwidth

end

end Writer

/-- If lines may differ, all events are written. -/
theorem render_flexible (events : List Event) : render true events = (.ok (), lines events) := by
  have hevents : Writer.events {} events = _ := Writer.events_fitting (.inl rfl)
  simp [render, hevents, Writer.written]

/-- Events are all of a kind, or there is a first one that is not. -/
theorem exists_first_of_another (kind : RecordKind) (events : List Event) :
    (∀ e ∈ events, e.kind = kind) ∨ ∃ before bad after, events = before ++ bad :: after ∧
      (∀ e ∈ before, e.kind = kind) ∧ bad.kind ≠ kind := by
  cases hbad : events.find? fun e => e.kind ≠ kind with
  | none => exact .inl (by simpa using hbad)
  | some bad =>
    obtain ⟨hne, before, after, hevents, hbefore⟩ := List.find?_eq_some_iff_append.1 hbad
    exact .inr ⟨before, bad, after, hevents, by simpa using hbefore, by simpa using hne⟩

/-- Events of the kind of the first one fit behind it, also if lines may not differ. -/
theorem fits_of_kind {first : Event} {events : List Event}
    (h : ∀ e ∈ events, e.kind = first.kind) :
    Writer.Fits { flexible := false } (first :: events) := by
  refine .inr ⟨first.columns.length, by simp, List.forall_mem_cons.2 ⟨rfl, fun e he => ?_⟩⟩
  rw [e.length_columns, first.length_columns, h e he]

/-- If they may not, all events of one kind are written, or else those in front of the first one of
another kind, whose line is not ended. -/
theorem render_rigid (events : List Event) :
    ((∀ e ∈ events, ∀ e' ∈ events, e.kind = e'.kind) ∧
      render false events = (.ok (), lines events)) ∨
    ∃ first before bad after, events = first :: before ++ bad :: after ∧
      (∀ e ∈ before, e.kind = first.kind) ∧ bad.kind ≠ first.kind ∧
      render false events = (.error (.columns first.kind.columns bad.kind.columns),
        lines (first :: before) ++ bad.line) := by
  cases events with
  | nil => exact .inl ⟨by simp, rfl⟩
  | cons first rest =>
    rcases exists_first_of_another first.kind rest with
      hkind | ⟨before, bad, after, rfl, hbefore, hne⟩
    · have hall : ∀ e ∈ first :: rest, e.kind = first.kind := List.forall_mem_cons.2 ⟨rfl, hkind⟩
      refine .inl ⟨fun e he e' he' => (hall e he).trans (hall e' he').symm, ?_⟩
      simp [render, Writer.events_fitting (fits_of_kind hkind), Writer.written]
    · have hcolumns : first.columns.length ≠ bad.columns.length := by
        rw [first.length_columns, bad.length_columns]
        exact fun h => hne (RecordKind.columns_inj h).symm
      have hevents : Writer.events { flexible := false } (first :: before ++ bad :: after) = _ :=
        Writer.events_misfit rfl (fits_of_kind hbefore) rfl hcolumns
      refine .inr ⟨first, before, bad, after, rfl, hbefore, hne, ?_⟩
      rw [← List.cons_append, render, hevents]
      simp [Writer.written, Event.length_columns]

/-! ## Nothing is lost -/

/-- If lines may differ, a table of whole events has a line for each of them, in order. Its columns
are as many as the event's kind has, they can be told apart, and the events are read back from them:
other events have another table. If lines may not differ, just events of one kind can all be
written. -/
theorem render_lossless {events : List Event} (h : ∀ e ∈ events, e.Whole) :
    render true events = (.ok (), lines events) ∧
    (lines events).toList.splitOn '\n' = events.map (fun e => e.line.toList) ++ [[]] ∧
    (∀ e ∈ events, e.line.toList.splitOn '\t' = e.columns.map String.toList ∧
      e.columns.length = e.kind.columns ∧
      ∀ column ∈ e.columns, ∀ c ∈ specials, c ∉ column.toList) ∧
    read? (lines events) = some events ∧
    (∀ others : List Event, (∀ e ∈ others, e.Whole) →
      (render true others).2 = lines events → others = events) ∧
    ((render false events).1 = .ok () ↔ ∀ e ∈ events, ∀ e' ∈ events, e.kind = e'.kind) := by
  refine ⟨render_flexible events, splitOn_lines events, fun e _ => ?_, read?_lines h, ?_, ?_⟩
  · exact ⟨e.splitOn_line, e.length_columns,
      fun column hcolumn c hc => (e.bare_columns column hcolumn).notMem_toList hc⟩
  · intro others hothers htable
    have hlines : lines others = lines events := by simpa [render_flexible] using htable
    have hread := read?_lines hothers
    rw [hlines, read?_lines h] at hread
    exact (Option.some.inj hread).symm
  · rcases render_rigid events with
      ⟨hkinds, hrender⟩ | ⟨first, before, bad, after, hevents, -, hne, hrender⟩
    · rw [hrender]
      exact iff_of_true rfl hkinds
    · rw [hrender]
      refine iff_of_false (by simp) fun hkinds => hne ?_
      exact hkinds bad (by simp [hevents]) first (by simp [hevents])

/-- Events of all kinds, with and without samples, and with intervals set and unset. -/
def mixed : List Event :=
  [.compact { time := 10, channel := 3, charge := 400 },
    .waveform { time := 1, channel := 2, charge := 3, baseline := 4, trigger := 1
                gate := { start := 0, stop := 2 }, samples := [100, 200, 300] },
    .extended { time := 0xFFFF00000001, channel := 63, charge := 1, baseline := 2 },
    .waveform { time := 7, trigger := 0xFFFF }]

theorem mixed_lossless : (∀ e ∈ mixed, e.Whole) ∧
    render true mixed = (.ok (),
      "3\t10\t400\n2\t1\t3\t4\t1\t0-2\t-\t-\t100,200,300\n63\t281470681743361\t1\t2\n" ++
        "0\t7\t0\t0\t65535\t-\t-\t-\t\n") ∧
    (∀ e ∈ mixed, e.columns.length = e.kind.columns) ∧ read? (lines mixed) = some mixed ∧
    (render false mixed).1 ≠ .ok () := by
  have hwhole : ∀ e ∈ mixed, e.Whole := by decide
  obtain ⟨hrender, -, hcolumns, hread, -, hrigid⟩ := render_lossless hwhole
  refine ⟨hwhole, ?_, fun e he => (hcolumns e he).2.1, hread, fun hok => ?_⟩
  · rw [hrender]
    decide +kernel
  · exact absurd (hrigid.1 hok) (by decide)

end Table

end PulseDaq
