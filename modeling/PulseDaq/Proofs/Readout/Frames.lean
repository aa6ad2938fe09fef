import PulseDaq.Readout.Decoder

/-!
# The grammar of readouts

What a readout is made of, stated on words and without a cursor. A readout is a run of board
frames; each holds one group frame for every set bit of its mask, in ascending order, and each of
those a run of events of one stride.

* `GroupFrame`, `BoardFrame`: a group aggregate and a board aggregate. A value of these types is
  well formed: its headers state the size and the parts that it has.
* `GroupFrame.words`, `BoardFrame.words`: the words that a frame takes in a readout.
* `GroupFrame.events`, `BoardFrame.events`: the events in a frame, which are the windows of one
  stride that `windows` cuts its words into.
-/

namespace PulseDaq

/-- The runs of `n` words, one after the other, that `ws` starts with. -/
def windows (n : Nat) (ws : List UInt32) : List (List UInt32) :=
  (List.range (ws.length / n)).map fun i => (ws.drop (i * n)).take n

@[simp] theorem windows_nil (n : Nat) : windows n [] = [] := by
  simp [windows]

/-- The first window of `n` words, and the windows behind it. -/
theorem windows_append {n : Nat} (hn : 0 < n) {w : List UInt32} (hw : w.length = n)
    (ws : List UInt32) : windows n (w ++ ws) = w :: windows n ws := by
  have hlen : (w ++ ws).length / n = ws.length / n + 1 := by
    rw [List.length_append, hw, Nat.add_comm, Nat.add_div_right _ hn]
  unfold windows
  rw [hlen, List.range_succ_eq_map, List.map_cons, List.map_map]
  congr 1
  · simp [← hw]
  · apply List.map_congr_left
    intro i _
    have hdrop : (i + 1) * n = w.length + i * n := by rw [Nat.succ_mul, hw, Nat.add_comm]
    simp only [Function.comp_apply, Nat.succ_eq_add_one]
    rw [hdrop, List.drop_length_add_append]

/-- A bit of a word is the bit of its number. -/
theorem Word.bit_eq_testBit (w : UInt32) (i : Nat) : Word.bit w i = w.toNat.testBit i := by
  rw [Nat.testBit_eq_decide_div_mod_eq]
  rfl

/-! ## Group frames -/

/-- The format that a format word states, whatever stands in its other bits. -/
def GroupFormat.stated (w : UInt32) : GroupFormat where
  extras := Word.bit w 28
  waveform := Word.bit w 27
  sampleField := UInt16.ofNat (Word.field w 0 12)

/-- The words of one event under a format word: two, one more for the extras, and four for every
unit of the sample field if there are samples. -/
def statedStride (w : UInt32) : Nat :=
  2 + (if Word.bit w 28 then 1 else 0) + (if Word.bit w 27 then 4 * Word.field w 0 12 else 0)

theorem GroupFormat.toNat_sampleField_stated (w : UInt32) :
    (stated w).sampleField.toNat = Word.field w 0 12 := by
  have hfield := Word.field_lt w 0 12
  simp only [Nat.pow_eq, Nat.reducePow] at hfield
  rw [stated, UInt16.toNat_ofNat', Nat.mod_eq_of_lt (by omega)]

theorem stride_stated (w : UInt32) : (GroupFormat.stated w).stride = statedStride w := by
  unfold GroupFormat.stride GroupFormat.extraWords GroupFormat.sampleWords statedStride
  rw [GroupFormat.toNat_sampleField_stated]
  rfl

/-- Only the three highest bits of a format word can make it unreadable. -/
theorem ofWord?_eq_some_iff {w : UInt32} {f : GroupFormat} :
    GroupFormat.ofWord? w = some f ↔
      (Word.bit w 31 = false ∧ Word.bit w 30 = true ∧ Word.bit w 29 = true) ∧
        f = GroupFormat.stated w := by
  unfold GroupFormat.ofWord?
  split
  next h =>
    simp only [reduceCtorEq, false_iff]
    rintro ⟨⟨h31, h30, h29⟩, -⟩
    simp [h31, h30, h29] at h
  next h =>
    simp only [Bool.or_eq_true, Bool.not_eq_true', not_or, Bool.not_eq_true, Bool.not_eq_false] at h
    simp only [h, and_self, true_and, Option.some.injEq]
    exact eq_comm

/-- A group aggregate, with the group that the mask announces for it. -/
structure GroupFrame where
  index : Group
  /-- The first word. -/
  header : UInt32
  /-- The second word. -/
  formatWord : UInt32
  /-- The words of the events. -/
  body : List UInt32
  header_marked : Word.bit header 31 = true
  header_size : Word.field header 0 31 = 2 + body.length
  format_marked :
    Word.bit formatWord 31 = false ∧ Word.bit formatWord 30 = true ∧ Word.bit formatWord 29 = true
  stride_dvd : statedStride formatWord ∣ body.length

namespace GroupFrame

/-- The words of the frame. -/
def words (f : GroupFrame) : List UInt32 :=
  f.header :: f.formatWord :: f.body

/-- The event in a window of the frame. -/
def event (f : GroupFrame) (window : List UInt32) : RawEvent where
  group := f.index
  format := .stated f.formatWord
  words := window

/-- The events of the frame, in order. -/
def events (f : GroupFrame) : List RawEvent :=
  (windows (statedStride f.formatWord) f.body).map f.event

@[simp] theorem length_words (f : GroupFrame) : f.words.length = 2 + f.body.length := by
  simp [words]; omega

end GroupFrame

/-! ## Board frames -/

/-- The words of group frames, one after the other. -/
def groupsWords (groups : List GroupFrame) : List UInt32 :=
  groups.flatMap (·.words)

theorem groupsWords_cons (f : GroupFrame) (groups : List GroupFrame) :
    groupsWords (f :: groups) = f.words ++ groupsWords groups := rfl

/-- A board aggregate. -/
structure BoardFrame where
  /-- The first word. -/
  header : UInt32
  /-- The second word, whose low byte is the mask of the groups. -/
  maskWord : UInt32
  groups : List GroupFrame
  header_magic : Word.field header 28 4 = 0xA
  header_size : Word.field header 0 28 = 2 + (groupsWords groups).length
  /-- There is one group frame for every set bit of the mask, in ascending order. -/
  groups_masked :
    groups.map (·.index) = (List.finRange 8).filter fun g => Word.bit maskWord g.val

namespace BoardFrame

/-- The words of the frame. -/
def words (b : BoardFrame) : List UInt32 :=
  b.header :: b.maskWord :: groupsWords b.groups

/-- The events of the frame, group by group. -/
def events (b : BoardFrame) : List RawEvent :=
  b.groups.flatMap (·.events)

@[simp] theorem length_words (b : BoardFrame) :
    b.words.length = 2 + (groupsWords b.groups).length := by
  simp [words]; omega

end BoardFrame

/-- The words of board frames, one after the other. -/
def boardsWords (boards : List BoardFrame) : List UInt32 :=
  boards.flatMap (·.words)

theorem boardsWords_cons (b : BoardFrame) (boards : List BoardFrame) :
    boardsWords (b :: boards) = b.words ++ boardsWords boards := rfl

/-- The events of board frames, one after the other. -/
def boardsEvents (boards : List BoardFrame) : List RawEvent :=
  boards.flatMap (·.events)

/-- The groups of a mask are those whose bits are set in its word. -/
theorem groups_field (w : UInt32) :
    GroupMask.groups (Word.field w 0 8) = (List.finRange 8).filter fun g => Word.bit w g.val := by
  unfold GroupMask.groups
  congr 1
  funext g
  have hmod := Nat.testBit_mod_two_pow w.toNat 8 g.val
  simp only [g.isLt, decide_true, Bool.true_and] at hmod
  simp only [Word.field, Nat.pow_eq, Nat.pow_zero, Nat.div_one]
  rw [hmod, Word.bit_eq_testBit]

end PulseDaq
