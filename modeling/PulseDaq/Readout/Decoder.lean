import PulseDaq.Readout.DecodeError
import PulseDaq.Readout.RawEvent

/-!
# Decoding readouts

A readout is a sequence of board aggregates. Each holds one group aggregate for every group of its
mask, in ascending order, and each of those a run of events of one stride. All sizes are in words
and count their own headers.

```text
board aggregate                   group aggregate
+-----------------------------+   +-------------------------------+
| 1010 | size (28 bits)       |   | 1 | size (31 bits)            |
| ...         | mask (8 bits) |   | format word                   |
| group aggregate, lowest bit |   | event (stride words)          |
| ...                         |   | ...                           |
+-----------------------------+   +-------------------------------+
```

* `Decoder.step`: the smallest move of the decoder; every length that it takes from the readout is
  checked against what encloses it.
* `Decoder.next`: the next event or error.
* `Decoder.items`: everything up to the end of the readout or the first error.
-/

namespace PulseDaq

/-- A group aggregate being read: its events end at word `stop`. -/
structure OpenGroup where
  index : Group
  format : GroupFormat
  stop : Nat
  deriving DecidableEq, Repr

/-- A cursor over the words of a readout. -/
structure Decoder where
  words : Array UInt32
  /-- The next word to read. -/
  pos : Nat := 0
  /-- The end of the board aggregate being read. -/
  boardStop : Nat := 0
  /-- The groups of its mask that have not been opened yet. -/
  groups : List Group := []
  /-- The group aggregate being read. -/
  group : Option OpenGroup := none
  /-- An error known before the first word is read. -/
  pending : Option DecodeError := none
  /-- The end or an error has been reached. -/
  finished : Bool := false
  deriving Repr

namespace Decoder

/-- Words of the header of a board aggregate and of a group aggregate. -/
def headerWords : Nat := 2

/-- The top four bits of the first word of a board aggregate. -/
def boardMagic : Nat := 0xA

/-- A decoder at the start of a readout. -/
def ofBytes (bytes : Bytes) : Decoder where
  words := Bytes.toWords bytes
  pending := if bytes.length % 4 = 0 then none else some (.misaligned bytes.length)

/-- Byte offset of the cursor. -/
def offset (d : Decoder) : Nat :=
  4 * d.pos

/-- Word `i` of the readout, zero behind its end. -/
def word (d : Decoder) (i : Nat) : UInt32 :=
  d.words.getD i 0

/-- Read the header of the board aggregate at the cursor. -/
def openBoard (d : Decoder) : Except DecodeError Decoder :=
  let available := d.words.size - d.pos
  if available < headerWords then
    .error (.boardLength d.offset available available)
  else
    let header := d.word d.pos
    let size := Word.field header 0 28
    if Word.field header 28 4 ≠ boardMagic then
      .error (.boardMagic d.offset header)
    else if size < headerWords ∨ available < size then
      .error (.boardLength d.offset size available)
    else
      .ok { d with
        pos := d.pos + headerWords
        boardStop := d.pos + size
        groups := GroupMask.groups (Word.field (d.word (d.pos + 1)) 0 8) }

/-- Read the header of the group aggregate at the cursor, for the group that the mask announces
there; `rest` are the groups behind it. -/
def openGroup (d : Decoder) (index : Group) (rest : List Group) : Except DecodeError Decoder :=
  let available := d.boardStop - d.pos
  if available < headerWords then
    .error (.groupLength d.offset available available)
  else
    let header := d.word d.pos
    let size := Word.field header 0 31
    if !Word.bit header 31 then
      .error (.groupHeader d.offset header)
    else if size < headerWords ∨ available < size then
      .error (.groupLength d.offset size available)
    else
      let formatWord := d.word (d.pos + 1)
      match GroupFormat.ofWord? formatWord with
      | none => .error (.format (d.offset + 4) formatWord)
      | some format =>
        if (size - headerWords) % format.stride ≠ 0 then
          .error (.stride d.offset (size - headerWords) format.stride)
        else
          .ok { d with
            pos := d.pos + headerWords
            groups := rest
            group := some ⟨index, format, d.pos + size⟩ }

/-- The words from the cursor on that make up one event of `g`. -/
def window (d : Decoder) (g : OpenGroup) : RawEvent where
  group := g.index
  format := g.format
  words := (d.words.extract d.pos (d.pos + g.format.stride)).toList

/-- What one move of the decoder comes to. -/
inductive Step where
  /-- An event, and the decoder behind it. -/
  | event (e : RawEvent) (d : Decoder)
  /-- A header was read or an aggregate ended. -/
  | moved (d : Decoder)
  /-- The readout is used up. -/
  | done
  | failed (e : DecodeError)

/-- One move of the decoder. -/
def step (d : Decoder) : Step :=
  match d.group with
  | some g =>
    if d.pos < g.stop then
      .event (d.window g) { d with pos := d.pos + g.format.stride }
    else
      .moved { d with group := none }
  | none =>
    match d.groups with
    | index :: rest =>
      if d.pos < d.boardStop then
        match d.openGroup index rest with
        | .ok d' => .moved d'
        | .error e => .failed e
      else
        .failed (.missingGroup d.offset index)
    | [] =>
      if d.pos < d.boardStop then
        .failed (.trailing d.offset (4 * d.boardStop))
      else if d.pos = d.words.size then
        .done
      else
        match d.openBoard with
        | .ok d' => .moved d'
        | .error e => .failed e

/-- Words left in the open group aggregate, and one for closing it. -/
def groupBudget (d : Decoder) : Nat :=
  match d.group with
  | some g => g.stop - d.pos + 1
  | none => 0

/-- What shrinks with every move: the readout left, else the groups to open, else what the open
group still holds. -/
def measure (d : Decoder) : Nat × Nat × Nat :=
  (d.words.size - d.pos, d.groups.length, d.groupBudget)

/-- The order in which `measure` shrinks. -/
abbrev Shrinks : Nat × Nat × Nat → Nat × Nat × Nat → Prop :=
  Prod.Lex (· < ·) (Prod.Lex (· < ·) (· < ·))

theorem openBoard_shrinks {d d' : Decoder} (h : d.openBoard = .ok d') :
    d'.words.size - d'.pos < d.words.size - d.pos := by
  simp only [openBoard] at h
  split at h
  · cases h
  next havailable =>
    split at h
    · cases h
    · split at h
      · cases h
      · cases h
        simp only [headerWords] at havailable ⊢
        omega

theorem openGroup_shrinks {d d' : Decoder} {index : Group} {rest : List Group}
    (h : d.openGroup index rest = .ok d') :
    d'.words = d.words ∧ d.pos ≤ d'.pos ∧ d'.groups = rest := by
  simp only [openGroup] at h
  split at h
  · cases h
  · split at h
    · cases h
    · split at h
      · cases h
      · split at h
        · cases h
        · split at h
          · cases h
          · cases h
            simp

theorem lex_of_le {a a' b b' c c' : Nat} (ha : a' ≤ a)
    (hbc : Prod.Lex (· < ·) (· < ·) (b', c') (b, c)) : Shrinks (a', b', c') (a, b, c) := by
  rcases Nat.lt_or_eq_of_le ha with h | h
  · exact .left _ _ h
  · subst h
    exact .right _ hbc

/-- A move without an event shrinks the measure. -/
theorem measure_moved {d d' : Decoder} (h : d.step = .moved d') : Shrinks d'.measure d.measure := by
  unfold step at h
  split at h
  next g hg =>
    split at h
    · cases h
    · cases h
      refine lex_of_le (Nat.le_refl _) (.right _ ?_)
      simp [groupBudget, hg]
  next hg =>
    split at h
    next index rest hgroups =>
      split at h
      · split at h
        next hopen =>
          cases h
          obtain ⟨hwords, hpos, hrest⟩ := openGroup_shrinks hopen
          refine lex_of_le (by rw [hwords]; omega) (.left _ _ ?_)
          simp [hgroups, hrest]
        · cases h
      · cases h
    next hgroups =>
      split at h
      · cases h
      · split at h
        · cases h
        · split at h
          next hopen =>
            cases h
            exact .left _ _ (openBoard_shrinks hopen)
          · cases h

/-- An event shrinks the measure. -/
theorem measure_event {d d' : Decoder} {e : RawEvent} (h : d.step = .event e d') :
    Shrinks d'.measure d.measure := by
  unfold step at h
  split at h
  next g hg =>
    split at h
    · cases h
      have hs := g.format.two_le_stride
      refine lex_of_le (by simp only; omega) (.right _ ?_)
      simp only [groupBudget, hg]
      omega
    · cases h
  next hg =>
    split at h
    · split at h
      · split at h <;> cases h
      · cases h
    · split at h
      · cases h
      · split at h
        · cases h
        · split at h <;> cases h

/-- The next event or error and the decoder behind it. Behind the end and behind an error there is
nothing more. -/
def next (d : Decoder) : Option (Except DecodeError RawEvent) × Decoder :=
  if d.finished then
    (none, d)
  else
    match d.pending with
    | some e => (some (.error e), { d with pending := none, finished := true })
    | none =>
      match _h : d.step with
      | .event e d' => (some (.ok e), d')
      | .moved d' => next d'
      | .done => (none, { d with finished := true })
      | .failed e => (some (.error e), { d with finished := true })
termination_by d.measure
decreasing_by exact measure_moved ‹_›

/-- What the decoder yields, with the byte offset of its cursor behind each item. -/
structure Item where
  result : Except DecodeError RawEvent
  offset : Nat

/-- Everything that the decoder yields from its present place on, behind what it yielded before:
events up to the end of the readout, or up to an error, which is the last item. -/
def collect (d : Decoder) (yielded : Array Item) : Array Item :=
  match _h : d.step with
  | .event e d' => collect d' (yielded.push ⟨.ok e, d'.offset⟩)
  | .moved d' => collect d' yielded
  | .done => yielded
  | .failed e => yielded.push ⟨.error e, d.offset⟩
termination_by d.measure
decreasing_by
  · exact measure_event ‹_›
  · exact measure_moved ‹_›

/-- Everything that the decoder yields. -/
def items (d : Decoder) : Array Item :=
  if d.finished then
    #[]
  else
    match d.pending with
    | some e => #[⟨.error e, d.offset⟩]
    | none => d.collect #[]

end Decoder

/-- The events of a readout in order; an error, if there is one, is the last item. -/
def decode (bytes : Bytes) : List (Except DecodeError RawEvent) :=
  (Decoder.ofBytes bytes).items.toList.map (·.result)

end PulseDaq
