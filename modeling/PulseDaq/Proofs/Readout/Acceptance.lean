import PulseDaq.Proofs.Readout.Frames
import PulseDaq.Proofs.Readout.Moves

/-!
# What the decoder accepts

The decoder against the grammar of readouts, in both directions.

* `results_body`, `results_group`, `results_groups`, `results_board`, `results_boards`: in front of
  a frame, whatever stands behind it, the decoder yields the events of the frame and goes on.
* `Ahead`: what a decoder that meets no error has in front of it: the rest of the open group, the
  groups that the mask still announces, and the boards behind them. `ahead_of_results` rebuilds the
  frames from the end of a run to its start.
* `decode_accepts_iff`: the decoder reads a readout without an error if and only if it is a run of
  board frames, and then yields exactly their events.
-/

namespace PulseDaq

namespace Decoder

/-- The words from the cursor on. -/
def remaining (d : Decoder) : List UInt32 :=
  d.words.toList.drop d.pos

@[simp] theorem length_remaining (d : Decoder) : d.remaining.length = d.words.size - d.pos := by
  simp [remaining]

/-- Words in front of the cursor, counted from it. -/
theorem word_pos_add (d : Decoder) (i : Nat) : d.word (d.pos + i) = d.remaining.getD i 0 := by
  simp [word, remaining, Array.getD_eq_getD_getElem?]

theorem word_pos (d : Decoder) : d.word d.pos = d.remaining.getD 0 0 :=
  word_pos_add d 0

/-- A cursor that has moved over `front` has in front of it what stood behind that. -/
theorem remaining_behind {d d' : Decoder} (front : List UInt32) {tail : List UInt32}
    (h : d.remaining = front ++ tail) (hwords : d'.words = d.words)
    (hpos : d'.pos = d.pos + front.length) : d'.remaining = tail := by
  have hdrop : d'.remaining = d.remaining.drop front.length := by
    simp [remaining, hwords, hpos]
  rw [hdrop, h, List.drop_left]

/-- The window of an event holds the words in front of the cursor. -/
theorem window_words (d : Decoder) (g : OpenGroup) :
    (d.window g).words = d.remaining.take g.format.stride := by
  simp [window, remaining, List.extract_eq_take_drop]

/-! ## In front of a frame -/

section Forward

variable {d : Decoder} (tail : List UInt32)

/-- The decoder yields the rest of the open group and closes it. -/
theorem results_body {g : OpenGroup} {body : List UInt32} (hg : d.group = some g)
    (hrem : d.remaining = body ++ tail) (hstop : g.stop = d.pos + body.length)
    (hdvd : g.format.stride ∣ body.length) :
    d.results = (windows g.format.stride body).map (fun w => .ok ⟨g.index, g.format, w⟩) ++
      results { d with pos := g.stop, group := none } := by
  obtain ⟨n, hn⟩ := hdvd
  have hs := g.format.two_le_stride
  induction n generalizing d body with
  | zero =>
    have hnil : body = [] := List.eq_nil_of_length_eq_zero (by simpa using hn)
    subst hnil
    have hpos : d.pos = g.stop := by simpa using hstop.symm
    have hstep : d.step = .moved { d with group := none } := by
      simp [step, hg, hpos]
    rw [results_moved hstep, ← hpos]
    simp
  | succ n ih =>
    have hlen : body.length = g.format.stride * n + g.format.stride := by rw [hn, Nat.mul_succ]
    -- The next event takes the first stride of the body.
    obtain ⟨w, rest, hbody, hw⟩ : ∃ w rest, body = w ++ rest ∧ w.length = g.format.stride :=
      ⟨body.take g.format.stride, body.drop g.format.stride, (List.take_append_drop _ _).symm,
        by rw [List.length_take]; omega⟩
    subst hbody
    have hwindow : d.window g = ⟨g.index, g.format, w⟩ := by
      have h := window_words d g
      rw [hrem, List.append_assoc, List.take_left' hw] at h
      simp only [window] at h ⊢
      rw [h]
    have hstep : d.step =
        .event ⟨g.index, g.format, w⟩ { d with pos := d.pos + g.format.stride } := by
      have hlt : d.pos < g.stop := by omega
      simp [step, hg, hlt, hwindow]
    rw [List.length_append, hw] at hlen hstop
    rw [results_event hstep, windows_append (by omega) hw, List.map_cons, List.cons_append]
    congr 1
    rw [List.append_assoc] at hrem
    refine ih (d := { d with pos := d.pos + g.format.stride }) hg ?_
      (by simp only; omega) (by omega)
    exact remaining_behind _ hrem rfl (by simp [hw])

/-- The decoder yields the events of a group frame that the mask announces. -/
theorem results_group {f : GroupFrame} {rest : List Group} (hrem : d.remaining = f.words ++ tail)
    (hgroup : d.group = none) (hgroups : d.groups = f.index :: rest)
    (hstop : d.pos + f.words.length ≤ d.boardStop) :
    d.results = f.events.map .ok ++
      results { d with pos := d.pos + f.words.length, groups := rest } := by
  have hlen := f.length_words
  have hsize := f.header_size
  have hword0 : d.word d.pos = f.header := by rw [word_pos, hrem]; rfl
  have hword1 : d.word (d.pos + 1) = f.formatWord := by rw [word_pos_add, hrem]; rfl
  have hopen : d.openGroup f.index rest = .ok { d with
      pos := d.pos + headerWords
      groups := rest
      group := some ⟨f.index, .stated f.formatWord, d.pos + f.words.length⟩ } := by
    refine openGroup_eq_ok_iff.2 ⟨?_, ?_, ?_, ?_, .stated f.formatWord, ?_, ?_, ?_⟩
    · simp only [headerWords]; omega
    · rw [hword0]; exact f.header_marked
    · rw [hword0, hsize]; simp only [headerWords]; omega
    · rw [hword0, hsize]; omega
    · rw [hword1]; exact ofWord?_eq_some_iff.2 ⟨f.format_marked, rfl⟩
    · rw [hword0, hsize, stride_stated, headerWords, Nat.add_sub_cancel_left]
      exact f.stride_dvd
    · rw [hword0, hsize, hlen]
  rw [results_moved (step_of_openGroup hgroup hgroups (by omega) hopen),
    results_body tail rfl ?_ ?_ ?_]
  · simp only [stride_stated, GroupFrame.events, List.map_map, ← hgroup]
    rfl
  · exact remaining_behind [f.header, f.formatWord] hrem rfl rfl
  · simp only [headerWords]; omega
  · rw [stride_stated]; exact f.stride_dvd

/-- The decoder yields the events of group frames that the mask announces. -/
theorem results_groups (fs : List GroupFrame) (rest : List Group)
    (hrem : d.remaining = groupsWords fs ++ tail) (hgroup : d.group = none)
    (hgroups : d.groups = fs.map (·.index) ++ rest)
    (hstop : d.pos + (groupsWords fs).length ≤ d.boardStop) :
    d.results = (fs.flatMap (·.events)).map .ok ++
      results { d with pos := d.pos + (groupsWords fs).length, groups := rest } := by
  induction fs generalizing d with
  | nil =>
    simp only [List.map_nil, List.nil_append] at hgroups
    simp [groupsWords, ← hgroups]
  | cons f fs ih =>
    rw [groupsWords_cons, List.append_assoc] at hrem
    rw [groupsWords_cons, List.length_append] at hstop
    rw [List.map_cons, List.cons_append] at hgroups
    have hrest := ih (d := { d with
        pos := d.pos + f.words.length
        groups := fs.map (·.index) ++ rest })
      (remaining_behind _ hrem rfl rfl) hgroup rfl (by simp only; omega)
    rw [results_group _ hrem hgroup hgroups (by omega), hrest]
    simp [groupsWords_cons, Nat.add_assoc]

/-- The decoder yields the events of a board frame. -/
theorem results_board {b : BoardFrame} (hrem : d.remaining = b.words ++ tail)
    (hgroup : d.group = none) (hgroups : d.groups = []) (hstop : d.boardStop ≤ d.pos) :
    d.results = b.events.map .ok ++ results { d with
      pos := d.pos + b.words.length
      boardStop := d.pos + b.words.length } := by
  have hlen := b.length_words
  have hsize := b.header_size
  have hroom : b.words.length ≤ d.words.size - d.pos := by
    rw [← length_remaining, hrem, List.length_append]
    omega
  have hword0 : d.word d.pos = b.header := by rw [word_pos, hrem]; rfl
  have hword1 : d.word (d.pos + 1) = b.maskWord := by rw [word_pos_add, hrem]; rfl
  have hopen : d.openBoard = .ok { d with
      pos := d.pos + headerWords
      boardStop := d.pos + b.words.length
      groups := b.groups.map (·.index) } := by
    refine openBoard_eq_ok_iff.2 ⟨?_, ?_, ?_, ?_, ?_⟩
    · simp only [headerWords]; omega
    · rw [hword0]; exact b.header_magic
    · rw [hword0, hsize]; simp only [headerWords]; omega
    · rw [hword0, hsize]; omega
    · rw [hword0, hword1, hsize, hlen, groups_field, b.groups_masked]
  rw [results_moved (step_of_openBoard hgroup hgroups hstop (by omega) hopen),
    results_groups tail b.groups [] ?_ ?_ ?_ ?_]
  · simp only [BoardFrame.events, headerWords, hlen, Nat.add_assoc, ← hgroups]
  · exact remaining_behind [b.header, b.maskWord] hrem rfl rfl
  · exact hgroup
  · simp
  · simp only [headerWords]; omega

/-- The decoder yields the events of board frames. -/
theorem results_boards {bs : List BoardFrame} (hrem : d.remaining = boardsWords bs ++ tail)
    (hgroup : d.group = none) (hgroups : d.groups = []) (hstop : d.boardStop = d.pos) :
    d.results = (boardsEvents bs).map .ok ++ results { d with
      pos := d.pos + (boardsWords bs).length
      boardStop := d.pos + (boardsWords bs).length } := by
  induction bs generalizing d with
  | nil =>
    have hd : { d with boardStop := d.pos } = d := by
      cases d
      cases hstop
      rfl
    simp [boardsWords, boardsEvents, hd]
  | cons b bs ih =>
    rw [boardsWords_cons, List.append_assoc] at hrem
    have hrest := ih (d := { d with
        pos := d.pos + b.words.length
        boardStop := d.pos + b.words.length })
      (remaining_behind _ hrem rfl rfl) hgroup hgroups rfl
    rw [results_board _ hrem hgroup hgroups (Nat.le_of_eq hstop), hrest]
    simp [boardsWords_cons, boardsEvents, Nat.add_assoc]

end Forward

/-! ## From the end of a run to its start -/

/-- In front of a cursor that moves over a header stand its two words, then what is left. -/
theorem remaining_header {d d' : Decoder} {rest : List UInt32} (hrest : d'.remaining = rest)
    (h : headerWords ≤ d.words.size - d.pos) (hwords : d'.words = d.words)
    (hpos : d'.pos = d.pos + headerWords) :
    d.remaining = d.word d.pos :: d.word (d.pos + 1) :: rest := by
  have hdrop : rest = d.remaining.drop 2 := by
    simp [← hrest, remaining, hwords, hpos, headerWords]
  have hlen := d.length_remaining
  rw [hdrop, word_pos, word_pos_add]
  simp only [headerWords] at h
  rcases hr : d.remaining with - | ⟨first, - | ⟨second, behind⟩⟩
  · simp [hr] at hlen
    omega
  · simp [hr] at hlen
    omega
  · rfl

/-- What a decoder that meets no error has in front of it: `body` is what is left of the open group,
`groups` are the frames that the mask still announces, `boards` those behind the open board. -/
structure Ahead (d : Decoder) (body : List UInt32) (groups : List GroupFrame)
    (boards : List BoardFrame) : Prop where
  remaining : d.remaining = body ++ (groupsWords groups ++ boardsWords boards)
  announced : d.groups = groups.map (·.index)
  boardStop : d.boardStop = d.pos + (body.length + (groupsWords groups).length)
  closed : d.group = none → body = []
  opened : ∀ g, d.group = some g → g.stop = d.pos + body.length

/-- In front of an event stands its window, then what the decoder behind it has in front of it. -/
theorem Ahead.event {d d' : Decoder} {e : RawEvent} {body : List UInt32}
    {groups : List GroupFrame} {boards : List BoardFrame} (hb : d.InBounds)
    (h : d.step = .event e d') (ha : Ahead d' body groups boards) :
    Ahead d (e.words ++ body) groups boards := by
  obtain ⟨g, hg, hlt, rfl, rfl⟩ := step_event h
  obtain ⟨-, hstop, hdvd⟩ := hb.group g hg
  have hfits : g.format.stride ≤ g.stop - d.pos := Nat.le_of_dvd (by omega) hdvd
  have hsize := hb.boardStop_le
  have hlen : (d.window g).words.length = g.format.stride := by
    rw [window_words, List.length_take, length_remaining]
    omega
  have hboard := ha.boardStop
  have hopened := ha.opened g hg
  simp only at hboard hopened
  refine ⟨?_, ha.announced, ?_, fun hnone => ?_, fun g' hg' => ?_⟩
  · rw [List.append_assoc, ← ha.remaining, window_words]
    simp only [Decoder.remaining, ← List.drop_drop, List.take_append_drop]
  · rw [List.length_append, hlen]
    omega
  · cases hg.symm.trans hnone
  · cases hg.symm.trans hg'
    rw [List.length_append, hlen]
    omega

/-- In front of a group header stands a group frame. -/
theorem Ahead.group {d d' : Decoder} {index : Group} {rest : List Group} {body : List UInt32}
    {groups : List GroupFrame} {boards : List BoardFrame} (hb : d.InBounds)
    (hgroup : d.group = none) (hgroups : d.groups = index :: rest)
    (hopen : d.openGroup index rest = .ok d') (ha : Ahead d' body groups boards) :
    ∃ f, Ahead d [] (f :: groups) boards := by
  obtain ⟨havailable, hmark, hlow, hhigh, format, hformat, hdvd, rfl⟩ :=
    openGroup_eq_ok_iff.1 hopen
  obtain ⟨hmarked, rfl⟩ := ofWord?_eq_some_iff.1 hformat
  have hsize : Word.field (d.word d.pos) 0 31 = 2 + body.length := by
    have hopened := ha.opened _ rfl
    simp only [headerWords] at hopened
    omega
  rw [hsize, stride_stated, headerWords, Nat.add_sub_cancel_left] at hdvd
  let f : GroupFrame := ⟨index, d.word d.pos, d.word (d.pos + 1), body, hmark, hsize, hmarked, hdvd⟩
  have hstop := hb.boardStop_le
  have hboard := ha.boardStop
  simp only [headerWords] at hboard
  refine ⟨f, ?_, ?_, ?_, fun _ => rfl, fun g hg => ?_⟩
  · have hroom := Nat.le_trans havailable (Nat.sub_le_sub_right hstop _)
    rw [remaining_header ha.remaining hroom rfl rfl]
    simp [groupsWords_cons, GroupFrame.words, f]
  · rw [hgroups, List.map_cons, ← ha.announced]
  · rw [groupsWords_cons, List.length_append, f.length_words, List.length_nil]
    simp only [f]
    omega
  · cases hgroup.symm.trans hg

/-- In front of a board header stands a board frame. -/
theorem Ahead.board {d d' : Decoder} {body : List UInt32} {groups : List GroupFrame}
    {boards : List BoardFrame} (hb : d.InBounds) (hgroup : d.group = none) (hgroups : d.groups = [])
    (hle : d.boardStop ≤ d.pos) (hopen : d.openBoard = .ok d') (ha : Ahead d' body groups boards) :
    ∃ b, Ahead d [] [] (b :: boards) := by
  obtain ⟨havailable, hmagic, hlow, hhigh, rfl⟩ := openBoard_eq_ok_iff.1 hopen
  have hnil : body = [] := ha.closed hgroup
  subst hnil
  have hsize : Word.field (d.word d.pos) 0 28 = 2 + (groupsWords groups).length := by
    have hboard := ha.boardStop
    simp only [headerWords, List.length_nil] at hboard
    omega
  have hmasked := ha.announced
  simp only [groups_field] at hmasked
  let b : BoardFrame :=
    ⟨d.word d.pos, d.word (d.pos + 1), groups, hmagic, hsize, hmasked.symm⟩
  have hpos := hb.pos_le
  refine ⟨b, ?_, ?_, ?_, fun _ => rfl, fun g hg => ?_⟩
  · rw [remaining_header ha.remaining havailable rfl rfl]
    simp [groupsWords, boardsWords_cons, BoardFrame.words, b]
  · rw [hgroups, List.map_nil]
  · simp only [groupsWords, List.flatMap_nil, List.length_nil]
    omega
  · cases hgroup.symm.trans hg

/-- A decoder that meets no error has nothing but frames in front of it. -/
theorem ahead_of_results {d : Decoder} (hb : d.InBounds) (hok : ∀ e, .error e ∉ d.results) :
    ∃ body groups boards, Ahead d body groups boards := by
  induction d using inductionOn with
  | event d e d' h ih =>
    rw [results_event h] at hok
    obtain ⟨body, groups, boards, ha⟩ := ih (hb.event h) fun e' he' => hok e' (.tail _ he')
    exact ⟨_, groups, boards, ha.event hb h⟩
  | moved d d' h ih =>
    rw [results_moved h] at hok
    obtain ⟨body, groups, boards, ha⟩ := ih (hb.moved h) hok
    obtain ⟨g, hg, hle, rfl⟩ | ⟨index, rest, hg, hgroups, hlt, hopen⟩ | ⟨hg, hgroups, hle, hopen⟩ :=
      step_moved h
    · have hnil : body = [] := ha.closed rfl
      subst hnil
      obtain ⟨hstop, -, -⟩ := hb.group g hg
      refine ⟨[], groups, boards, ha.remaining, ha.announced, ha.boardStop, fun _ => rfl, ?_⟩
      intro g' hg'
      cases hg.symm.trans hg'
      exact Nat.le_antisymm hle hstop
    · obtain ⟨f, hf⟩ := ha.group hb hg hgroups hopen
      exact ⟨[], _, boards, hf⟩
    · obtain ⟨b, hboard⟩ := ha.board hb hg hgroups hle hopen
      exact ⟨[], [], _, hboard⟩
  | done d h =>
    obtain ⟨hg, hgroups, hle, hend⟩ := step_done h
    have hpos := hb.pos_le
    refine ⟨[], [], [], ?_, hgroups, ?_, fun _ => rfl, fun g hg' => ?_⟩
    · apply List.eq_nil_of_length_eq_zero
      simp [hend]
    · simp only [groupsWords, List.flatMap_nil, List.length_nil]
      omega
    · cases hg.symm.trans hg'
  | failed d e h =>
    rw [results_failed h] at hok
    exact absurd (List.mem_singleton.2 rfl) (hok e)

end Decoder

/-! ## Readouts -/

/-- The decoder yields the events of a run of board frames and no error. -/
theorem decode_of_boards {bytes : Bytes} {boards : List BoardFrame} (h : bytes.length % 4 = 0)
    (hwords : (Bytes.toWords bytes).toList = boardsWords boards) :
    decode bytes = (boardsEvents boards).map .ok := by
  have hrem : (Decoder.ofBytes bytes).remaining = boardsWords boards ++ [] := by
    rw [List.append_nil, ← hwords]
    rfl
  have hsize : (Bytes.toWords bytes).size = (boardsWords boards).length := by
    rw [← hwords, Array.length_toList]
  rw [decode_eq_results h, Decoder.results_boards _ hrem rfl rfl rfl, Decoder.results_done,
    List.append_nil]
  simp [Decoder.step, Decoder.ofBytes, hsize]

theorem aligned_of_decode {bytes : Bytes} (hok : ∀ e, .error e ∉ decode bytes) :
    bytes.length % 4 = 0 := by
  by_cases h : bytes.length % 4 = 0
  · exact h
  · exact absurd (List.mem_singleton.2 rfl) (decode_misaligned h ▸ hok _)

/-- A readout without an error is a run of board frames. -/
theorem boards_of_decode {bytes : Bytes} (h : bytes.length % 4 = 0)
    (hok : ∀ e, .error e ∉ decode bytes) :
    ∃ boards, (Bytes.toWords bytes).toList = boardsWords boards := by
  rw [decode_eq_results h] at hok
  obtain ⟨body, groups, boards, ha⟩ :=
    Decoder.ahead_of_results (Decoder.inBounds_ofBytes bytes) hok
  have hbody : body = [] := ha.closed rfl
  have hgroups : groups = [] := List.map_eq_nil_iff.1 ha.announced.symm
  have hrem := ha.remaining
  rw [hbody, hgroups] at hrem
  exact ⟨boards, hrem⟩

/-- **Acceptance.** A readout is read without an error if and only if it is of whole words and these
are a run of board frames; and then its events are those of the frames, in order. -/
theorem decode_accepts_iff (bytes : Bytes) :
    ((∀ e, .error e ∉ decode bytes) ↔
      bytes.length % 4 = 0 ∧ ∃ boards, (Bytes.toWords bytes).toList = boardsWords boards) ∧
    ∀ boards, bytes.length % 4 = 0 → (Bytes.toWords bytes).toList = boardsWords boards →
      decode bytes = (boardsEvents boards).map .ok := by
  refine ⟨⟨fun hok => ?_, ?_⟩, fun boards h hwords => decode_of_boards h hwords⟩
  · have h := aligned_of_decode hok
    exact ⟨h, boards_of_decode h hok⟩
  · rintro ⟨h, boards, hwords⟩ e he
    rw [decode_of_boards h hwords] at he
    simp at he

/-- A board with one event in group 0 and an empty group 2, and a board without groups. -/
def twoBoards : List BoardFrame :=
  [{ header := 0xA0000009
     maskWord := 0x12345605
     groups := [
      { index := ⟨0, by decide⟩
        header := 0x80000005
        formatWord := 0x70000000
        body := [7, 0x00010002, 0x30000004]
        header_marked := by decide
        header_size := by decide
        format_marked := by decide
        stride_dvd := by decide },
      { index := ⟨2, by decide⟩
        header := 0x80000002
        formatWord := 0x6FFF0001
        body := []
        header_marked := by decide
        header_size := by decide
        format_marked := by decide
        stride_dvd := by decide }]
     header_magic := by decide
     header_size := by decide
     groups_masked := by decide },
   { header := 0xA0000002
     maskWord := 0xFFFFFF00
     groups := []
     header_magic := by decide
     header_size := by decide
     groups_masked := by decide }]

theorem decode_twoBoards :
    let bytes := Bytes.ofWords [0xA0000009, 0x12345605, 0x80000005, 0x70000000, 7, 0x00010002,
      0x30000004, 0x80000002, 0x6FFF0001, 0xA0000002, 0xFFFFFF00]
    bytes.length % 4 = 0 ∧ (Bytes.toWords bytes).toList = boardsWords twoBoards ∧
      decode bytes = [.ok ⟨0, ⟨true, false, 0⟩, [7, 0x00010002, 0x30000004]⟩] := by
  intro bytes
  have hlen : bytes.length % 4 = 0 := by decide
  have hwords : (Bytes.toWords bytes).toList = boardsWords twoBoards := by
    rw [Bytes.toWords_ofWords]
    rfl
  exact ⟨hlen, hwords, (decode_accepts_iff bytes).2 twoBoards hlen hwords⟩

end PulseDaq
