import PulseDaq.Proofs.Readout.Acceptance
import PulseDaq.Proofs.Readout.Safety

/-!
# Readouts cut short

A readout that was read without an error and has lost its end is never taken for a shorter one,
unless it was cut between two boards.

* `boardStart`: where each board of a readout begins, and where the last one ends.
* `Decoder.openBoard_cut`: a board that is not all there is refused, whatever is there of it. This
  one check of the length is all that the cut meets: a board is opened before anything in it.
* `decode_take`: the events of whole boards, and one error if the cut is in a board.
* `CutShort`, `cutShort_of_decode`: the main result.
-/

namespace PulseDaq

/-! ## Where boards begin -/

/-- The byte at which board `k` begins; behind the last board, the byte at which that ends. -/
def boardStart (boards : List BoardFrame) (k : Nat) : Nat :=
  4 * (boardsWords (boards.take k)).length

theorem boardsWords_append (front back : List BoardFrame) :
    boardsWords (front ++ back) = boardsWords front ++ boardsWords back :=
  List.flatMap_append

/-- The words of a readout around its board `k`. -/
theorem boardsWords_split {boards : List BoardFrame} {k : Nat} {b : BoardFrame}
    (hb : boards[k]? = some b) : boardsWords boards =
      boardsWords (boards.take k) ++ (b.words ++ boardsWords (boards.drop (k + 1))) := by
  obtain ⟨hk, rfl⟩ := List.getElem?_eq_some_iff.1 hb
  rw [← boardsWords_cons, ← List.drop_eq_getElem_cons hk, ← boardsWords_append,
    List.take_append_drop]

theorem boardStart_succ {boards : List BoardFrame} {k : Nat} {b : BoardFrame}
    (hb : boards[k]? = some b) :
    boardStart boards (k + 1) = boardStart boards k + 4 * b.words.length := by
  have htake : boards.take (k + 1) = boards.take k ++ [b] := by
    rw [List.take_add_one, hb]
    rfl
  rw [boardStart, boardStart, htake, boardsWords_append, List.length_append, Nat.mul_add,
    boardsWords_cons, List.length_append]
  rfl

/-- Every byte of a readout is in one of its boards. -/
theorem exists_board {boards : List BoardFrame} {p : Nat}
    (hp : p < 4 * (boardsWords boards).length) :
    ∃ k b, boards[k]? = some b ∧ boardStart boards k ≤ p ∧ p < boardStart boards (k + 1) := by
  induction boards generalizing p with
  | nil => simp [boardsWords] at hp
  | cons b boards ih =>
    rw [boardsWords_cons, List.length_append] at hp
    have hnext : ∀ k, boardStart (b :: boards) (k + 1) =
        4 * b.words.length + boardStart boards k := by
      intro k
      rw [boardStart, List.take_succ_cons, boardsWords_cons, List.length_append, Nat.mul_add]
      rfl
    by_cases hfirst : p < 4 * b.words.length
    · exact ⟨0, b, rfl, Nat.zero_le _, by rw [hnext]; omega⟩
    · obtain ⟨k, b', hb', hle, hlt⟩ := ih (p := p - 4 * b.words.length) (by omega)
      exact ⟨k + 1, b', hb', by rw [hnext]; omega, by rw [hnext]; omega⟩

theorem boardStart_mono (boards : List BoardFrame) : Monotone (boardStart boards) := by
  intro j k hjk
  obtain ⟨i, rfl⟩ := Nat.exists_eq_add_of_le hjk
  rw [boardStart, boardStart, List.take_add, boardsWords_append, List.length_append]
  omega

/-- Boards begin one behind the other. -/
theorem boardStart_lt {boards : List BoardFrame} {j k : Nat} (hjk : j < k)
    (hk : k ≤ boards.length) : boardStart boards j < boardStart boards k := by
  have hb := List.getElem?_eq_getElem (l := boards) (i := j) (by omega)
  have hsucc := boardStart_succ hb
  have hmono := boardStart_mono boards (show j + 1 ≤ k from hjk)
  rw [BoardFrame.length_words] at hsucc
  omega

/-- An event of the boards in front of board `k` is in one that ends there or before. -/
theorem exists_board_of_mem {boards : List BoardFrame} {k : Nat} {e : RawEvent}
    (he : e ∈ boardsEvents (boards.take k)) :
    ∃ j b, boards[j]? = some b ∧ boardStart boards (j + 1) ≤ boardStart boards k ∧
      e ∈ b.events := by
  obtain ⟨b, hb, hevent⟩ := List.mem_flatMap.1 he
  obtain ⟨j, hj⟩ := List.mem_iff_getElem?.1 hb
  rw [List.getElem?_take] at hj
  by_cases hlt : j < k
  swap
  · rw [if_neg hlt] at hj
    cases hj
  rw [if_pos hlt] at hj
  exact ⟨j, b, hj, boardStart_mono boards hlt, hevent⟩

/-! ## A piece of a board -/

/-- The error about a board at byte `start` of which only the first `r` words are there. Its header
says how long it is, unless not even that is all there. -/
def BoardFrame.cutError (b : BoardFrame) (start r : Nat) : DecodeError :=
  .boardLength start (if r < Decoder.headerWords then r else b.words.length) r

namespace Decoder

variable {d : Decoder} {b : BoardFrame} {r : Nat}

/-- A board of which only the first `r` words are there is refused for its length. -/
theorem openBoard_cut (hrem : d.remaining = b.words.take r) (hr : r < b.words.length) :
    d.openBoard = .error (b.cutError d.offset r) := by
  have havailable : d.words.size - d.pos = r := by
    rw [← length_remaining, hrem, List.length_take]
    omega
  unfold openBoard BoardFrame.cutError
  by_cases hshort : r < headerWords
  · simp only [havailable, hshort, if_true]
  -- The header is there, and says more words than there are.
  have hheader : d.word d.pos = b.header := by
    rw [word_pos, hrem]
    rcases r with _ | r
    · simp [headerWords] at hshort
    · rfl
  have hmagic : Word.field b.header 28 4 = boardMagic := b.header_magic
  have hsize : Word.field b.header 0 28 = b.words.length := by
    rw [b.header_size, b.length_words]
  have hlong : b.words.length < headerWords ∨ r < b.words.length := .inr hr
  simp only [havailable, hshort, hheader, hmagic, hsize, hlong, ne_eq, not_true_eq_false, if_true,
    if_false]

/-- In front of a piece of a board the decoder yields an error, unless the piece is empty. -/
theorem results_piece (hrem : d.remaining = b.words.take r) (hr : r < b.words.length)
    (hgroup : d.group = none) (hgroups : d.groups = []) (hstop : d.boardStop = d.pos)
    (hpos : d.pos ≤ d.words.size) :
    d.results = if r = 0 then [] else [.error (b.cutError d.offset r)] := by
  have hleft : d.words.size - d.pos = r := by
    rw [← length_remaining, hrem, List.length_take]
    omega
  have hlt : ¬d.pos < d.boardStop := by omega
  by_cases hzero : r = 0
  · have hend : d.pos = d.words.size := by omega
    rw [if_pos hzero]
    apply results_done
    simp only [step, hgroup, hgroups]
    rw [if_neg hlt, if_pos hend]
  · have hend : d.pos ≠ d.words.size := by omega
    rw [if_neg hzero]
    apply results_failed
    simp only [step, hgroup, hgroups, openBoard_cut hrem hr]
    rw [if_neg hlt, if_neg hend]

end Decoder

/-- In front of whole boards and a piece of another one, the decoder yields the events of the whole
boards and one error. -/
theorem decode_piece (boards : List BoardFrame) {b : BoardFrame} {r : Nat}
    (hr : r < b.words.length) :
    decode (Bytes.ofWords (boardsWords boards ++ b.words.take r)) =
      (boardsEvents boards).map .ok ++
        if r = 0 then [] else [.error (b.cutError (4 * (boardsWords boards).length) r)] := by
  have haligned : (Bytes.ofWords (boardsWords boards ++ b.words.take r)).length % 4 = 0 := by
    rw [Bytes.length_ofWords, Nat.mul_mod_right]
  have hrem : (Decoder.ofBytes (Bytes.ofWords (boardsWords boards ++ b.words.take r))).remaining =
      boardsWords boards ++ b.words.take r := by
    simp only [Decoder.remaining, Decoder.ofBytes, Bytes.toWords_ofWords, List.drop_zero]
  rw [decode_eq_results haligned, Decoder.results_boards _ hrem rfl rfl rfl]
  congr 1
  rw [Decoder.results_piece (b := b) (r := r) ?_ hr rfl rfl rfl ?_]
  · simp only [Decoder.offset, Decoder.ofBytes, Nat.zero_add]
  · exact Decoder.remaining_behind _ hrem rfl rfl
  · simp only [Decoder.ofBytes, Bytes.toWords_ofWords]
    simp

section Readout

variable {bytes : Bytes} {boards : List BoardFrame} (haligned : bytes.length % 4 = 0)
  (hwords : (Bytes.toWords bytes).toList = boardsWords boards)
include haligned hwords

theorem boardStart_length : boardStart boards boards.length = bytes.length := by
  have hsize := Bytes.size_toWords bytes
  rw [← Array.length_toList, hwords] at hsize
  rw [boardStart, List.take_length, hsize]
  omega

/-- The first words of a readout up to somewhere in board `k`. -/
theorem take_eq_piece {k r : Nat} {b : BoardFrame} (hb : boards[k]? = some b)
    (hr : r ≤ b.words.length) : bytes.take (boardStart boards k + 4 * r) =
      Bytes.ofWords (boardsWords (boards.take k) ++ b.words.take r) := by
  have hbytes : bytes = Bytes.ofWords (boardsWords boards) := by
    rw [← hwords, Bytes.ofWords_toWords bytes haligned]
  have hslice := Bytes.ofWords_slice (boardsWords boards) 0
    ((boardsWords (boards.take k)).length + r)
  rw [Nat.mul_zero, List.drop_zero, List.drop_zero] at hslice
  rw [hbytes, boardStart, ← Nat.mul_add, ← hslice, boardsWords_split hb,
    List.take_length_add_append, List.take_append_of_le_length hr]

/-- A readout cut between two words yields the events of the boards in front of the cut, and one
error if the cut is in a board. -/
theorem decode_take {p k : Nat} {b : BoardFrame} (hp : p % 4 = 0) (hb : boards[k]? = some b)
    (hle : boardStart boards k ≤ p) (hlt : p < boardStart boards (k + 1)) :
    decode (bytes.take p) = (boardsEvents (boards.take k)).map .ok ++
      if p = boardStart boards k then [] else
        [.error (b.cutError (boardStart boards k) ((p - boardStart boards k) / 4))] := by
  have hstart : boardStart boards k % 4 = 0 := Nat.mul_mod_right _ _
  obtain ⟨r, rfl⟩ : ∃ r, p = boardStart boards k + 4 * r :=
    ⟨(p - boardStart boards k) / 4, by omega⟩
  rw [boardStart_succ hb] at hlt
  have hpiece := decode_piece (boards.take k) (b := b) (r := r) (by omega)
  rw [take_eq_piece haligned hwords hb (by omega), hpiece, Nat.add_sub_cancel_left,
    Nat.mul_div_cancel_left r (by decide)]
  congr 1
  by_cases hzero : r = 0
  · rw [if_pos hzero, if_pos (by omega)]
  · rw [if_neg hzero, if_neg (by omega)]
    rfl

end Readout

/-! ## Main result -/

/-- What the first `p` bytes of a readout of `boards` are read as. -/
structure CutShort (boards : List BoardFrame) (bytes : Bytes) (p : Nat) : Prop where
  /-- The cut is in a word. -/
  misaligned : p % 4 ≠ 0 → decode (bytes.take p) = [.error (.misaligned p)]
  /-- The cut is between two boards, or in front of the first one. -/
  between : ∀ k, p = boardStart boards k →
    decode (bytes.take p) = (boardsEvents (boards.take k)).map .ok
  /-- The cut is in board `k`. -/
  inside : ∀ k b, boards[k]? = some b → p % 4 = 0 → boardStart boards k < p →
    p < boardStart boards (k + 1) →
    decode (bytes.take p) = (boardsEvents (boards.take k)).map .ok ++
      [.error (b.cutError (boardStart boards k) ((p - boardStart boards k) / 4))]
  /-- There is always one board in which the cut is, or in front of which it is. -/
  somewhere : ∃ k b, boards[k]? = some b ∧ boardStart boards k ≤ p ∧ p < boardStart boards (k + 1)
  /-- Every event is in a board that is all there. -/
  whole : ∀ e, .ok e ∈ decode (bytes.take p) →
    ∃ k b, boards[k]? = some b ∧ boardStart boards (k + 1) ≤ p ∧ e ∈ b.events

/-- **Truncation.** Whatever is missing at the end of a readout without an error, what is left is
read as the boards that are all there, with one error if there is more of it than these. -/
theorem cutShort_of_decode {bytes : Bytes} (hok : ∀ e, .error e ∉ decode bytes) :
    (∃ boards, (Bytes.toWords bytes).toList = boardsWords boards) ∧
    ∀ boards, (Bytes.toWords bytes).toList = boardsWords boards →
      boardStart boards 0 = 0 ∧ boardStart boards boards.length = bytes.length ∧
      (∀ j k, j < k → k ≤ boards.length → boardStart boards j < boardStart boards k) ∧
      decode bytes = (boardsEvents boards).map .ok ∧
      ∀ p < bytes.length, CutShort boards bytes p := by
  have haligned : bytes.length % 4 = 0 := by
    by_contra h
    exact hok _ (by rw [decode_misaligned h]; exact List.mem_singleton.2 rfl)
  refine ⟨boards_of_decode haligned hok, fun boards hwords => ?_⟩
  have hlength := boardStart_length haligned hwords
  refine ⟨rfl, hlength, fun j k hjk hk => boardStart_lt hjk hk, decode_of_boards haligned hwords,
    fun p hp => ?_⟩
  obtain ⟨k, b, hb, hle, hlt⟩ : ∃ k b, boards[k]? = some b ∧ boardStart boards k ≤ p ∧
      p < boardStart boards (k + 1) := by
    apply exists_board
    rw [boardStart, List.take_length] at hlength
    omega
  refine ⟨fun hmis => ?_, fun j hj => ?_, fun j c hc haligned' hgt hlt' => ?_, ⟨k, b, hb, hle, hlt⟩,
    fun e he => ?_⟩
  · have htake : (bytes.take p).length = p := by
      rw [List.length_take]
      omega
    rw [decode_misaligned (by rw [htake]; exact hmis), htake]
  · have hlast : j < boards.length := by
      by_contra hge
      rw [boardStart, List.take_of_length_le (by omega)] at hj
      rw [boardStart, List.take_length] at hlength
      omega
    have hc := List.getElem?_eq_getElem hlast
    have hp' : p % 4 = 0 := by rw [hj, boardStart, Nat.mul_mod_right]
    have hlt' := boardStart_lt (Nat.lt_add_one j) hlast
    rw [decode_take haligned hwords hp' hc (by omega) (by omega), if_pos hj, List.append_nil]
  · rw [decode_take haligned hwords haligned' hc (by omega) hlt', if_neg (by omega)]
  · by_cases hp' : p % 4 = 0
    · rw [decode_take haligned hwords hp' hb hle hlt] at he
      obtain he | he := List.mem_append.1 he
      · obtain ⟨e', he', heq⟩ := List.mem_map.1 he
        cases heq
        obtain ⟨j, c, hc, hend, hevent⟩ := exists_board_of_mem he'
        exact ⟨j, c, hc, hend.trans hle, hevent⟩
      · split at he
        · cases he
        · cases List.mem_singleton.1 he
    · rw [decode_misaligned (by rw [List.length_take]; omega)] at he
      cases List.mem_singleton.1 he

/-- The two boards of `twoBoards`, cut in a word, between two words of the first board, between the
boards, and behind the first word of the second one. -/
theorem cutShort_twoBoards :
    let bytes := Bytes.ofWords (boardsWords twoBoards)
    (∀ e, .error e ∉ decode bytes) ∧
      decode (bytes.take 30) = [.error (.misaligned 30)] ∧
      decode (bytes.take 28) = [.error (.boardLength 0 9 7)] ∧
      decode (bytes.take 36) = [.ok ⟨0, ⟨true, false, 0⟩, [7, 0x00010002, 0x30000004]⟩] ∧
      decode (bytes.take 40) =
        [.ok ⟨0, ⟨true, false, 0⟩, [7, 0x00010002, 0x30000004]⟩, .error (.boardLength 36 1 1)] := by
  intro bytes
  have hwords : (Bytes.toWords bytes).toList = boardsWords twoBoards := by
    rw [Bytes.toWords_ofWords]
  have hok : ∀ e, .error e ∉ decode bytes := by
    intro e he
    rw [decode_of_boards (by decide) hwords] at he
    simp at he
  obtain ⟨-, -, -, -, hcut⟩ := (cutShort_of_decode hok).2 twoBoards hwords
  refine ⟨hok, (hcut 30 (by decide)).misaligned (by decide), ?_, ?_, ?_⟩
  · exact (hcut 28 (by decide)).inside 0 _ rfl (by decide) (by decide) (by decide)
  · exact (hcut 36 (by decide)).between 1 (by decide)
  · exact (hcut 40 (by decide)).inside 1 _ rfl (by decide) (by decide) (by decide)

end PulseDaq
