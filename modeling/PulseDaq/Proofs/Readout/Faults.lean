import Mathlib.Data.List.Basic
import PulseDaq.Proofs.Readout.Acceptance

/-!
# The first fault of a readout

A readout of whole words that is no run of board frames has a first place where it stops being one.
The decoder yields the events of all groups in front of it, those of the broken board included, and
then one error that says what is wrong there.

* `GroupFault`, `BoardFault`: what can be wrong where a group or a board has to begin, with the
  error for it. Each constructor says that every check in front of its own has passed.
* `FirstFault`: board frames, then a faulty board.
* `exists_boards_or_fault`: words are a run of board frames or have a first fault. This speaks of
  the grammar alone.
* `Decoder.results_of_boardFault`: what the decoder makes of a faulty board.
* `decode_firstFault`: the main result.
-/

namespace PulseDaq

/-! ## Faults -/

/-- The three highest bits of a format word are clear, set and set. -/
def FormatMarked (w : UInt32) : Prop :=
  Word.bit w 31 = false ∧ Word.bit w 30 = true ∧ Word.bit w 29 = true

instance (w : UInt32) : Decidable (FormatMarked w) :=
  inferInstanceAs (Decidable (_ ∧ _ ∧ _))

/-- Why words do not begin with a group frame, if they are all that is left of their board and begin
at byte `offset` of the readout. -/
inductive GroupFault (offset : Nat) : List UInt32 → DecodeError → Prop
  | short (w : UInt32) : GroupFault offset [w] (.groupLength offset 1 1)
  | header {header second : UInt32} {rest : List UInt32} (unmarked : Word.bit header 31 = false) :
    GroupFault offset (header :: second :: rest) (.groupHeader offset header)
  | length {header second : UInt32} {rest : List UInt32} (marked : Word.bit header 31 = true)
    (size : Word.field header 0 31 < 2 ∨ 2 + rest.length < Word.field header 0 31) :
    GroupFault offset (header :: second :: rest)
      (.groupLength offset (Word.field header 0 31) (2 + rest.length))
  | format {header formatWord : UInt32} {rest : List UInt32} (marked : Word.bit header 31 = true)
    (low : 2 ≤ Word.field header 0 31) (high : Word.field header 0 31 ≤ 2 + rest.length)
    (unmarked : ¬FormatMarked formatWord) :
    GroupFault offset (header :: formatWord :: rest) (.format (offset + 4) formatWord)
  | stride {header formatWord : UInt32} {rest : List UInt32} (marked : Word.bit header 31 = true)
    (low : 2 ≤ Word.field header 0 31) (high : Word.field header 0 31 ≤ 2 + rest.length)
    (formatted : FormatMarked formatWord)
    (ragged : ¬statedStride formatWord ∣ Word.field header 0 31 - 2) :
    GroupFault offset (header :: formatWord :: rest)
      (.stride offset (Word.field header 0 31 - 2) (statedStride formatWord))

/-- Why words are not the groups that the mask of their board still announces, if they are all that
is left of the board and begin at byte `offset` of the readout. -/
inductive RestFault (offset : Nat) : List Group → List UInt32 → DecodeError → Prop
  | group {g : Group} {announced : List Group} {ws : List UInt32} {e : DecodeError}
    (fault : GroupFault offset ws e) : RestFault offset (g :: announced) ws e
  | missing (g : Group) (announced : List Group) :
    RestFault offset (g :: announced) [] (.missingGroup offset g)
  | trailing {ws : List UInt32} (left : ws ≠ []) :
    RestFault offset [] ws (.trailing offset (offset + 4 * ws.length))

/-- Why words do not begin with a board frame, if they are all that is left of the readout and begin
at its byte `offset`. The events are those of the groups in front of the fault. -/
inductive BoardFault (offset : Nat) : List UInt32 → List RawEvent → DecodeError → Prop
  | short (w : UInt32) : BoardFault offset [w] [] (.boardLength offset 1 1)
  | magic {header second : UInt32} {rest : List UInt32} (magic : Word.field header 28 4 ≠ 0xA) :
    BoardFault offset (header :: second :: rest) [] (.boardMagic offset header)
  | length {header second : UInt32} {rest : List UInt32} (magic : Word.field header 28 4 = 0xA)
    (size : Word.field header 0 28 < 2 ∨ 2 + rest.length < Word.field header 0 28) :
    BoardFault offset (header :: second :: rest) []
      (.boardLength offset (Word.field header 0 28) (2 + rest.length))
  /-- The board is all there: its header, whole groups and what is `left` of it at the fault. -/
  | inside {header maskWord : UInt32} {groups : List GroupFrame} {announced : List Group}
    {left behind : List UInt32} {e : DecodeError} (magic : Word.field header 28 4 = 0xA)
    (size : Word.field header 0 28 = 2 + (groupsWords groups).length + left.length)
    (masked : groups.map (·.index) ++ announced =
      (List.finRange 8).filter fun g => Word.bit maskWord g.val)
    (fault : RestFault (offset + 4 * (2 + (groupsWords groups).length)) announced left e) :
    BoardFault offset (header :: maskWord :: (groupsWords groups ++ (left ++ behind)))
      (groups.flatMap (·.events)) e

/-- Words that are board frames up to a faulty board, with the events in front of the fault. -/
inductive FirstFault : List UInt32 → List RawEvent → DecodeError → Prop
  | behind (boards : List BoardFrame) {ws : List UInt32} {events : List RawEvent} {e : DecodeError}
    (fault : BoardFault (4 * (boardsWords boards).length) ws events e) :
    FirstFault (boardsWords boards ++ ws) (boardsEvents boards ++ events) e

/-! ## Frames up to a fault -/

theorem exists_group_or_fault (offset : Nat) (g : Group) {ws : List UInt32} (hws : ws ≠ []) :
    (∃ (f : GroupFrame) (rest : List UInt32), f.index = g ∧ ws = f.words ++ rest) ∨
      ∃ e, GroupFault offset ws e := by
  rcases ws with - | ⟨header, - | ⟨formatWord, rest⟩⟩
  · exact absurd rfl hws
  · exact .inr ⟨_, .short header⟩
  by_cases hmarked : Word.bit header 31 = true
  swap
  · exact .inr ⟨_, .header (Bool.not_eq_true _ ▸ hmarked)⟩
  by_cases hsize : Word.field header 0 31 < 2 ∨ 2 + rest.length < Word.field header 0 31
  · exact .inr ⟨_, .length hmarked hsize⟩
  by_cases hformat : FormatMarked formatWord
  swap
  · exact .inr ⟨_, .format hmarked (by omega) (by omega) hformat⟩
  by_cases hstride : statedStride formatWord ∣ Word.field header 0 31 - 2
  swap
  · exact .inr ⟨_, .stride hmarked (by omega) (by omega) hformat hstride⟩
  -- All checks have passed, so the header says how many of the other words are the group's.
  have hbody : (rest.take (Word.field header 0 31 - 2)).length = Word.field header 0 31 - 2 := by
    rw [List.length_take]
    omega
  let f : GroupFrame := {
    index := g
    header := header
    formatWord := formatWord
    body := rest.take (Word.field header 0 31 - 2)
    header_marked := hmarked
    header_size := by omega
    format_marked := hformat
    stride_dvd := by rw [hbody]; exact hstride }
  refine .inl ⟨f, rest.drop (Word.field header 0 31 - 2), rfl, ?_⟩
  simp only [GroupFrame.words, f, List.cons_append, List.take_append_drop]

/-- Words are the announced groups, or begin with some of them up to a fault. -/
theorem exists_groups_or_fault (offset : Nat) (announced : List Group) (ws : List UInt32) :
    (∃ groups : List GroupFrame, groups.map (·.index) = announced ∧ ws = groupsWords groups) ∨
      ∃ (groups : List GroupFrame) (others : List Group) (left : List UInt32) (e : DecodeError),
        groups.map (·.index) ++ others = announced ∧ ws = groupsWords groups ++ left ∧
        RestFault (offset + 4 * (groupsWords groups).length) others left e := by
  induction announced generalizing offset ws with
  | nil =>
    by_cases hws : ws = []
    · exact .inl ⟨[], rfl, hws⟩
    · exact .inr ⟨[], [], ws, _, rfl, rfl, .trailing hws⟩
  | cons g announced ih =>
    by_cases hws : ws = []
    · subst hws
      exact .inr ⟨[], g :: announced, [], _, rfl, rfl, .missing g announced⟩
    obtain ⟨f, rest, rfl, rfl⟩ | ⟨e, hfault⟩ := exists_group_or_fault offset g hws
    swap
    · exact .inr ⟨[], g :: announced, ws, e, rfl, rfl, .group hfault⟩
    obtain ⟨groups, rfl, rfl⟩ | ⟨groups, others, left, e, rfl, rfl, hfault⟩ :=
      ih (offset + 4 * f.words.length) rest
    · exact .inl ⟨f :: groups, rfl, rfl⟩
    · refine .inr ⟨f :: groups, others, left, e, rfl, ?_, ?_⟩
      · rw [groupsWords_cons, List.append_assoc]
      · rwa [groupsWords_cons, List.length_append, Nat.mul_add, ← Nat.add_assoc]

theorem exists_board_or_fault (offset : Nat) {ws : List UInt32} (hws : ws ≠ []) :
    (∃ (b : BoardFrame) (rest : List UInt32), ws = b.words ++ rest) ∨
      ∃ events e, BoardFault offset ws events e := by
  rcases ws with - | ⟨header, - | ⟨maskWord, rest⟩⟩
  · exact absurd rfl hws
  · exact .inr ⟨_, _, .short header⟩
  by_cases hmagic : Word.field header 28 4 = 0xA
  swap
  · exact .inr ⟨_, _, .magic hmagic⟩
  by_cases hsize : Word.field header 0 28 < 2 ∨ 2 + rest.length < Word.field header 0 28
  · exact .inr ⟨_, _, .length hmagic hsize⟩
  -- The header says where the board ends; what is in it does not depend on what is behind it.
  obtain ⟨inner, behind, rfl, hinner⟩ : ∃ inner behind, rest = inner ++ behind ∧
      inner.length = Word.field header 0 28 - 2 :=
    ⟨rest.take (Word.field header 0 28 - 2), rest.drop (Word.field header 0 28 - 2),
      (List.take_append_drop _ _).symm, by rw [List.length_take]; omega⟩
  obtain ⟨groups, hmasked, rfl⟩ | ⟨groups, others, left, e, hmasked, rfl, hfault⟩ :=
    exists_groups_or_fault (offset + 8)
      ((List.finRange 8).filter fun g => Word.bit maskWord g.val) inner
  · let b : BoardFrame := ⟨header, maskWord, groups, hmagic, by omega, hmasked⟩
    exact .inl ⟨b, behind, rfl⟩
  · rw [List.length_append] at hinner
    refine .inr ⟨groups.flatMap (·.events), e, ?_⟩
    rw [List.append_assoc]
    refine .inside hmagic (by omega) hmasked ?_
    rwa [Nat.mul_add, ← Nat.add_assoc]

/-- Words are board frames, or begin with some up to a faulty board. -/
theorem exists_boards_or_fault (offset : Nat) (ws : List UInt32) :
    (∃ boards, ws = boardsWords boards) ∨
      ∃ boards rest events e, ws = boardsWords boards ++ rest ∧
        BoardFault (offset + 4 * (boardsWords boards).length) rest events e := by
  induction hn : ws.length using Nat.strongRecOn generalizing offset ws with
  | ind n ih =>
    by_cases hws : ws = []
    · exact .inl ⟨[], hws⟩
    obtain ⟨b, rest, rfl⟩ | ⟨events, e, hfault⟩ := exists_board_or_fault offset hws
    swap
    · exact .inr ⟨[], ws, events, e, rfl, hfault⟩
    rw [List.length_append, b.length_words] at hn
    obtain ⟨boards, rfl⟩ | ⟨boards, left, events, e, rfl, hfault⟩ :=
      ih rest.length (by omega) (offset + 4 * b.words.length) rest rfl
    · exact .inl ⟨b :: boards, rfl⟩
    · refine .inr ⟨b :: boards, left, events, e, ?_, ?_⟩
      · rw [boardsWords_cons, List.append_assoc]
      · rwa [boardsWords_cons, List.length_append, Nat.mul_add, ← Nat.add_assoc]

/-! ## The decoder in front of a fault -/

namespace Decoder

variable {d : Decoder} {left behind : List UInt32} {e : DecodeError}

theorem length_headed (header second : UInt32) (rest : List UInt32) :
    (header :: second :: rest).length = 2 + rest.length := by
  simp only [List.length_cons]
  omega

/-- A format word is readable exactly if it is marked. -/
theorem ofWord?_eq_none_iff {w : UInt32} : GroupFormat.ofWord? w = none ↔ ¬FormatMarked w := by
  rw [← Option.not_isSome_iff_eq_none, Option.isSome_iff_exists, not_iff_not]
  exact ⟨fun ⟨f, hf⟩ => (ofWord?_eq_some_iff.1 hf).1, fun h => ⟨_, ofWord?_eq_some_iff.2 ⟨h, rfl⟩⟩⟩

/-- The header of a faulty group is refused with the error for the fault. -/
theorem openGroup_of_fault (hrem : d.remaining = left ++ behind)
    (hstop : d.boardStop = d.pos + left.length) (hfault : GroupFault d.offset left e)
    (index : Group) (rest : List Group) : d.openGroup index rest = .error e := by
  have havailable : d.boardStop - d.pos = left.length := by omega
  have hword0 := word_pos d
  have hword1 := word_pos_add d 1
  rw [hrem] at hword0 hword1
  unfold openGroup
  simp only [havailable, headerWords]
  cases hfault with
  | short w => simp
  | @header header second rest unmarked =>
    simp only [List.cons_append, List.getD_cons_zero] at hword0
    simp [hword0, unmarked]
  | @length header second rest marked size =>
    simp only [List.cons_append, List.getD_cons_zero] at hword0
    rw [length_headed, hword0, if_neg (by omega), if_neg (by simp [marked]), if_pos size]
  | @format header formatWord rest marked low high unmarked =>
    simp only [List.cons_append, List.getD_cons_zero, List.getD_cons_succ] at hword0 hword1
    rw [length_headed, hword0, hword1, if_neg (by omega), if_neg (by simp [marked]),
      if_neg (by omega), ofWord?_eq_none_iff.2 unmarked]
  | @stride header formatWord rest marked low high formatted ragged =>
    simp only [List.cons_append, List.getD_cons_zero, List.getD_cons_succ] at hword0 hword1
    rw [length_headed, hword0, hword1, if_neg (by omega), if_neg (by simp [marked]),
      if_neg (by omega), ofWord?_eq_some_iff.2 ⟨formatted, rfl⟩]
    simp only [stride_stated]
    rw [if_pos fun hmod => ragged (Nat.dvd_of_mod_eq_zero hmod)]

/-- Behind whole groups of a board the decoder names what is wrong with the rest of it. -/
theorem step_of_restFault (hrem : d.remaining = left ++ behind)
    (hstop : d.boardStop = d.pos + left.length) (hgroup : d.group = none)
    (hfault : RestFault d.offset d.groups left e) : d.step = .failed e := by
  unfold step
  rw [hgroup]
  generalize hgroups : d.groups = groups at hfault
  cases hfault with
  | @group g announced _ _ fault =>
    have hlt : d.pos < d.boardStop := by
      cases fault
      all_goals
        simp only [List.length_cons] at hstop
        omega
    simp only [hlt, if_true, openGroup_of_fault hrem hstop fault]
  | missing g announced =>
    have hend : ¬d.pos < d.boardStop := by simp [hstop]
    simp only [hend, if_false]
  | trailing hleft =>
    have hlt : d.pos < d.boardStop := by
      have := List.length_pos_iff.2 hleft
      omega
    simp only [hlt, if_true]
    rw [hstop, offset, Nat.mul_add]

/-- The decoder yields the events of the whole groups of a board whose end is there, and then names
what is wrong with the rest of it. -/
theorem results_of_restFault {header maskWord : UInt32} {groups : List GroupFrame}
    {announced : List Group}
    (hrem : d.remaining = header :: maskWord :: (groupsWords groups ++ (left ++ behind)))
    (hgroup : d.group = none) (hgroups : d.groups = []) (hstop : d.boardStop = d.pos)
    (hmagic : Word.field header 28 4 = 0xA)
    (hsize : Word.field header 0 28 = 2 + (groupsWords groups).length + left.length)
    (hmasked : groups.map (·.index) ++ announced =
      (List.finRange 8).filter fun g => Word.bit maskWord g.val)
    (hfault : RestFault (d.offset + 4 * (2 + (groupsWords groups).length)) announced left e) :
    d.results = (groups.flatMap (·.events)).map .ok ++ [.error e] := by
  have havailable := length_remaining d
  have hword0 := word_pos d
  have hword1 := word_pos_add d 1
  rw [hrem] at havailable hword0 hword1
  simp only [List.getD_cons_zero, List.getD_cons_succ] at hword0 hword1
  simp only [List.length_cons, List.length_append] at havailable
  have hopen : d.openBoard = .ok { d with
      pos := d.pos + headerWords
      boardStop := d.pos + Word.field header 0 28
      groups := groups.map (·.index) ++ announced } := by
    refine openBoard_eq_ok_iff.2 ⟨?_, ?_, ?_, ?_, ?_⟩
    · simp only [headerWords]; omega
    · rw [hword0]; exact hmagic
    · rw [hword0, hsize]; simp only [headerWords]; omega
    · rw [hword0, hsize]; omega
    · rw [hword0, hword1, groups_field, hmasked]
  have hinner : Decoder.remaining { d with
      pos := d.pos + headerWords
      boardStop := d.pos + Word.field header 0 28
      groups := groups.map (·.index) ++ announced } = _ :=
    remaining_behind [header, maskWord] hrem rfl rfl
  rw [results_moved (step_of_openBoard hgroup hgroups (Nat.le_of_eq hstop) (by omega) hopen),
    results_groups _ groups announced hinner hgroup rfl
      (by simp only [headerWords, hsize]; omega)]
  congr 1
  refine results_failed (step_of_restFault (remaining_behind _ hinner rfl rfl) ?_ hgroup ?_)
  · simp only [headerWords, hsize]; omega
  · simp only [offset, headerWords, Nat.mul_add, Nat.add_assoc] at hfault ⊢
    exact hfault

/-- In front of a faulty board the decoder yields the events of its whole groups and the error for
the fault. -/
theorem results_of_boardFault {ws : List UInt32} {events : List RawEvent}
    (hrem : d.remaining = ws) (hgroup : d.group = none) (hgroups : d.groups = [])
    (hstop : d.boardStop = d.pos) (hfault : BoardFault d.offset ws events e) :
    d.results = events.map .ok ++ [.error e] := by
  have havailable : d.words.size - d.pos = ws.length := by rw [← hrem, length_remaining]
  have hword0 := word_pos d
  rw [hrem] at hword0
  have hrefused (h : d.openBoard = .error e) (hne : ws ≠ []) : d.results = [.error e] := by
    have hend : d.pos ≠ d.words.size := by
      have := List.length_pos_iff.2 hne
      omega
    apply results_failed
    simp [step, hgroup, hgroups, hstop, hend, h]
  cases hfault with
  | short w =>
    refine hrefused ?_ (by simp)
    unfold openBoard
    simp [havailable, headerWords]
  | @magic header second rest magic =>
    simp only [List.getD_cons_zero] at hword0
    refine hrefused ?_ (by simp)
    unfold openBoard
    have hne : Word.field header 28 4 ≠ boardMagic := magic
    simp [havailable, headerWords, hword0, hne]
  | @length header second rest magic size =>
    simp only [List.getD_cons_zero] at hword0
    refine hrefused ?_ (by simp)
    have heq : ¬Word.field header 28 4 ≠ boardMagic := not_not.2 magic
    unfold openBoard
    simp only [havailable, headerWords, length_headed, hword0]
    rw [if_neg (by omega), if_neg heq, if_pos size]
  | inside magic size masked fault =>
    exact results_of_restFault hrem hgroup hgroups hstop magic size masked fault

end Decoder

/-! ## Main result -/

/-- In front of a first fault the decoder yields the events and the error for it. -/
theorem decode_of_firstFault {bytes : Bytes} {events : List RawEvent} {e : DecodeError}
    (haligned : bytes.length % 4 = 0) (h : FirstFault (Bytes.toWords bytes).toList events e) :
    decode bytes = events.map .ok ++ [.error e] := by
  generalize hwords : (Bytes.toWords bytes).toList = words at h
  obtain @⟨boards, ws, events, e, hfault⟩ := h
  have hrem : (Decoder.ofBytes bytes).remaining = boardsWords boards ++ ws := by
    rw [← hwords]
    rfl
  rw [decode_eq_results haligned, Decoder.results_boards _ hrem rfl rfl rfl, List.map_append,
    List.append_assoc]
  congr 1
  refine Decoder.results_of_boardFault (Decoder.remaining_behind _ hrem rfl rfl) rfl rfl rfl ?_
  simpa only [Decoder.offset, Decoder.ofBytes, Nat.zero_add] using hfault

/-- **The first fault.** A readout of whole words is read with an error if and only if it has a
first fault; and it is read as these events and this error, and no more, if and only if they are
those in front of its first fault and the one for it. -/
theorem decode_firstFault {bytes : Bytes} (haligned : bytes.length % 4 = 0) :
    ((∃ e, .error e ∈ decode bytes) ↔
      ∃ events e, FirstFault (Bytes.toWords bytes).toList events e) ∧
    ∀ events e, decode bytes = events.map .ok ++ [.error e] ↔
      FirstFault (Bytes.toWords bytes).toList events e := by
  have hexists (he : ∃ e, .error e ∈ decode bytes) :
      ∃ events e, FirstFault (Bytes.toWords bytes).toList events e := by
    obtain ⟨e, he⟩ := he
    obtain ⟨boards, hwords⟩ | ⟨boards, rest, events, e', hwords, hfault⟩ :=
      exists_boards_or_fault 0 (Bytes.toWords bytes).toList
    · rw [decode_of_boards haligned hwords] at he
      simp at he
    · rw [Nat.zero_add] at hfault
      rw [hwords]
      exact ⟨_, e', .behind boards hfault⟩
  refine ⟨⟨hexists, ?_⟩, fun events e => ⟨fun hdecode => ?_, decode_of_firstFault haligned⟩⟩
  · rintro ⟨events, e, h⟩
    exact ⟨e, by simp [decode_of_firstFault haligned h]⟩
  · obtain ⟨events', e', h⟩ := hexists ⟨e, by simp [hdecode]⟩
    -- What the decoder yields is determined, so this is the fault it has named.
    rw [decode_of_firstFault haligned h] at hdecode
    obtain ⟨hevents, herror⟩ := List.append_inj' hdecode rfl
    have hsame : events' = events := List.map_injective_iff.2 (fun _ _ h => Except.ok.inj h) hevents
    simp only [List.cons.injEq, Except.error.injEq, and_true] at herror
    rw [← hsame, ← herror]
    exact h

/-- Two whole boards, then one whose group 1 holds an event and whose group 3 holds a word too many,
and another whole board. -/
def raggedReadout : List UInt32 :=
  boardsWords twoBoards ++ [0xA000000B, 0x0000000A, 0x80000004, 0x60000000, 3, 0x10000005,
    0x80000005, 0x60000000, 1, 2, 3, 0xA0000002, 0]

theorem decode_raggedReadout :
    (Bytes.ofWords raggedReadout).length % 4 = 0 ∧
      decode (Bytes.ofWords raggedReadout) =
        [.ok ⟨0, ⟨true, false, 0⟩, [7, 0x00010002, 0x30000004]⟩,
          .ok ⟨1, ⟨false, false, 0⟩, [3, 0x10000005]⟩, .error (.stride 68 3 2)] := by
  have haligned : (Bytes.ofWords raggedReadout).length % 4 = 0 := by decide
  let whole : GroupFrame := {
    index := 1
    header := 0x80000004
    formatWord := 0x60000000
    body := [3, 0x10000005]
    header_marked := by decide
    header_size := by decide
    format_marked := by decide
    stride_dvd := by decide }
  have hevents : [whole].flatMap (·.events) = [⟨1, ⟨false, false, 0⟩, [3, 0x10000005]⟩] := by
    decide
  have hgroup : GroupFault 68 [0x80000005, 0x60000000, 1, 2, 3] (.stride 68 3 2) :=
    .stride (by decide) (by decide) (by decide) (by decide) (by decide)
  have hboard : BoardFault 44 _ _ (.stride 68 3 2) :=
    @BoardFault.inside 44 0xA000000B 0x0000000A [whole] [3] _ [0xA0000002, 0] _ (by decide)
      (by decide) (by decide) (.group hgroup)
  rw [hevents] at hboard
  refine ⟨haligned, ((decode_firstFault haligned).2 [⟨0, _, _⟩, ⟨1, _, _⟩] _).2 ?_⟩
  rw [Bytes.toWords_ofWords]
  exact .behind twoBoards hboard

end PulseDaq
