import Mathlib.Order.Monotone.Basic
import PulseDaq.Proofs.Readout.Moves

/-!
# Reading any bytes safely

Whatever the bytes of a readout are, the decoder reads no word behind their end and takes no
difference that would be negative, and what it yields are separate pieces of them.

* `Decoder.step?`: a move that fails to be defined where a word is missing or a difference would be
  negative. Inside its bounds the decoder is never at such a place (`Decoder.InBounds.step?_eq`).
* `Decoder.Reached`: the states of the decoder between two items and on the way to one.
* `Decoder.after`, `Decoder.answer`: the decoder behind so many items, and the item that follows.
* `Decoder.readsSafely`: the main result.
-/

namespace PulseDaq

/-- A difference that must not be negative. -/
def difference? (a b : Nat) : Option Nat :=
  if b ≤ a then some (a - b) else none

theorem difference?_eq {a b : Nat} (h : b ≤ a) : difference? a b = some (a - b) :=
  if_pos h

/-- A slice whose ends must not be crossed or behind the last word. -/
def slice? (words : Array UInt32) (start stop : Nat) : Option (List UInt32) :=
  if start ≤ stop ∧ stop ≤ words.size then some (words.extract start stop).toList else none

namespace Bytes

theorem size_pushWords (acc : Array UInt32) (bytes : Bytes) :
    (pushWords acc bytes).size = acc.size + bytes.length / 4 := by
  fun_induction pushWords acc bytes with
  | case1 acc a b c d rest ih =>
    rw [ih, Array.size_push]
    simp only [List.length_cons]
    omega
  | case2 bytes acc hshort =>
    rcases bytes with _ | ⟨a, _ | ⟨b, _ | ⟨c, _ | ⟨d, rest⟩⟩⟩⟩
    case cons.cons.cons.cons => exact absurd rfl (hshort a b c d rest)
    all_goals simp

/-- As many words as the bytes fill. -/
theorem size_toWords (bytes : Bytes) : (toWords bytes).size = bytes.length / 4 := by
  rw [toWords, size_pushWords, Array.size_empty, Nat.zero_add]

/-- A run of words is a run of bytes. -/
theorem ofWords_slice (words : List UInt32) (i n : Nat) :
    ofWords ((words.drop i).take n) = ((ofWords words).drop (4 * i)).take (4 * n) := by
  induction words generalizing i n with
  | nil => simp
  | cons w words ih =>
    cases i with
    | succ i =>
      rw [List.drop_succ_cons, ih, ofWords_cons, Nat.mul_succ, Nat.add_comm,
        ← List.drop_drop, List.drop_left' (length_ofNat 4 _)]
    | zero =>
      cases n with
      | zero => rfl
      | succ n =>
        have h := ih 0 n
        simp only [List.drop_zero, Nat.mul_zero] at h ⊢
        have hword := length_ofNat 4 w.toNat
        rw [List.take_succ_cons, ofWords_cons, ofWords_cons, h, Nat.mul_succ, Nat.add_comm,
          List.take_append, hword, Nat.add_sub_cancel_left,
          List.take_of_length_le (l := ofNat 4 w.toNat) (by omega)]

end Bytes

/-- An event has all the words that its format speaks of. -/
structure RawEvent.Whole (e : RawEvent) : Prop where
  length : e.words.length = e.format.stride
  first : e.words[0]? = some e.timeTag
  last : ∃ i, difference? e.format.stride 1 = some i ∧ e.words[i]? = some e.lastWord
  extras : e.format.extras = true →
    ∃ i, difference? e.format.stride 2 = some i ∧ e.words[i]? = some e.extrasWord
  samples : 1 + e.format.sampleWords ≤ e.words.length

/-- An event of the length that its format asks for has every word. -/
theorem RawEvent.whole_of_length {e : RawEvent} (h : e.words.length = e.format.stride) :
    e.Whole := by
  have htwo := e.format.two_le_stride
  have hword (i : Nat) (hi : i < e.format.stride) : e.words[i]? = some (e.word i) := by
    rw [word, List.getD_eq_getElem?_getD, List.getElem?_eq_getElem (h ▸ hi), Option.getD_some]
  refine ⟨h, hword 0 (by omega), ⟨_, difference?_eq (by omega), hword _ (by omega)⟩,
    fun hextras => ⟨_, difference?_eq htwo, ?_⟩, ?_⟩
  · rw [extrasWord, if_pos hextras]
    exact hword _ (by omega)
  · rw [h, GroupFormat.stride]
    omega

namespace Decoder

/-! ## Moves that have to be defined -/

/-- `openBoard`, reading only words that are there. -/
def openBoard? (d : Decoder) : Option (Except DecodeError Decoder) := do
  let available ← difference? d.words.size d.pos
  if available < headerWords then
    return .error (.boardLength d.offset available available)
  let header ← d.words[d.pos]?
  let size := Word.field header 0 28
  if Word.field header 28 4 ≠ boardMagic then
    return .error (.boardMagic d.offset header)
  if size < headerWords ∨ available < size then
    return .error (.boardLength d.offset size available)
  let maskWord ← d.words[d.pos + 1]?
  return .ok { d with
    pos := d.pos + headerWords
    boardStop := d.pos + size
    groups := GroupMask.groups (Word.field maskWord 0 8) }

/-- `openGroup`, reading only words that are there. -/
def openGroup? (d : Decoder) (index : Group) (rest : List Group) :
    Option (Except DecodeError Decoder) := do
  let available ← difference? d.boardStop d.pos
  if available < headerWords then
    return .error (.groupLength d.offset available available)
  let header ← d.words[d.pos]?
  let size := Word.field header 0 31
  if !Word.bit header 31 then
    return .error (.groupHeader d.offset header)
  if size < headerWords ∨ available < size then
    return .error (.groupLength d.offset size available)
  let formatWord ← d.words[d.pos + 1]?
  match GroupFormat.ofWord? formatWord with
  | none => return .error (.format (d.offset + 4) formatWord)
  | some format =>
    let events ← difference? size headerWords
    if events % format.stride ≠ 0 then
      return .error (.stride d.offset events format.stride)
    return .ok { d with
      pos := d.pos + headerWords
      groups := rest
      group := some ⟨index, format, d.pos + size⟩ }

/-- `step`, reading only words that are there. -/
def step? (d : Decoder) : Option Step :=
  match d.group with
  | some g =>
    if d.pos < g.stop then do
      let words ← slice? d.words d.pos (d.pos + g.format.stride)
      return .event ⟨g.index, g.format, words⟩ { d with pos := d.pos + g.format.stride }
    else
      some (.moved { d with group := none })
  | none =>
    match d.groups with
    | index :: rest =>
      if d.pos < d.boardStop then do
        match ← d.openGroup? index rest with
        | .ok d' => return .moved d'
        | .error e => return .failed e
      else
        some (.failed (.missingGroup d.offset index))
    | [] =>
      if d.pos < d.boardStop then
        some (.failed (.trailing d.offset (4 * d.boardStop)))
      else if d.pos = d.words.size then
        some .done
      else do
        match ← d.openBoard? with
        | .ok d' => return .moved d'
        | .error e => return .failed e

theorem getElem?_words {d : Decoder} {i : Nat} (h : i < d.words.size) :
    d.words[i]? = some (d.word i) := by
  rw [Array.getElem?_eq_getElem h, word, Array.getD_eq_getD_getElem?,
    Array.getElem?_eq_getElem h, Option.getD_some]

theorem InBounds.openBoard?_eq {d : Decoder} (hb : d.InBounds) :
    d.openBoard? = some d.openBoard := by
  have hpos := hb.pos_le
  have hstop := hb.boardStop_le
  unfold openBoard? openBoard
  rw [difference?_eq (by omega)]
  by_cases havailable : d.words.size - d.pos < headerWords
  · simp [havailable]
  have hwords : headerWords = 2 := rfl
  rw [getElem?_words (by omega), getElem?_words (by omega)]
  simp only [Option.pure_def, Option.bind_eq_bind, Option.bind_some, havailable, if_false]
  split
  · rfl
  · split <;> rfl

theorem InBounds.openGroup?_eq {d : Decoder} (hb : d.InBounds) (index : Group)
    (rest : List Group) : d.openGroup? index rest = some (d.openGroup index rest) := by
  have hpos := hb.pos_le
  have hstop := hb.boardStop_le
  unfold openGroup? openGroup
  rw [difference?_eq hpos]
  by_cases havailable : d.boardStop - d.pos < headerWords
  · simp [havailable]
  have hwords : headerWords = 2 := rfl
  rw [getElem?_words (by omega), getElem?_words (by omega)]
  simp only [Option.pure_def, Option.bind_eq_bind, Option.bind_some, havailable, if_false]
  split
  · rfl
  · split
    · rfl
    next hsize =>
      cases GroupFormat.ofWord? (d.word (d.pos + 1)) with
      | none => rfl
      | some format =>
        simp only [difference?_eq (Nat.le_of_not_lt (not_or.1 hsize).1), Option.bind_some]
        split <;> rfl

/-- Inside its bounds the decoder reads nothing that is not there. -/
theorem InBounds.step?_eq {d : Decoder} (hb : d.InBounds) : d.step? = some d.step := by
  have hstop := hb.boardStop_le
  unfold step? step
  cases hg : d.group with
  | some g =>
    obtain ⟨-, hgroup, hdvd⟩ := hb.group g hg
    by_cases hlt : d.pos < g.stop
    -- What is left of a group is a multiple of the stride, so if anything is, an event is.
    · have hfits : g.format.stride ≤ g.stop - d.pos := Nat.le_of_dvd (by omega) hdvd
      simp only [hlt, if_true]
      rw [slice?, if_pos ⟨by omega, by omega⟩]
      rfl
    · simp only [hlt, if_false]
  | none =>
    cases d.groups with
    | cons index rest =>
      simp only [hb.openGroup?_eq]
      split
      · cases d.openGroup index rest <;> rfl
      · rfl
    | nil =>
      simp only [hb.openBoard?_eq]
      split
      · rfl
      · split
        · rfl
        · cases d.openBoard <;> rfl

/-! ## Items one after another -/

theorem event_pos {d d' : Decoder} {e : RawEvent} (h : d.step = .event e d') :
    d'.pos = d.pos + e.format.stride := by
  obtain ⟨g, -, -, rfl, rfl⟩ := step_event h
  rfl

theorem moved_pos_le {d d' : Decoder} (h : d.step = .moved d') : d.pos ≤ d'.pos := by
  obtain ⟨g, -, -, rfl⟩ | ⟨index, rest, -, -, -, hopen⟩ | ⟨-, -, -, hopen⟩ := step_moved h
  · exact Nat.le_refl _
  · exact (openGroup_shrinks hopen).2.1
  · obtain ⟨-, -, -, -, rfl⟩ := openBoard_eq_ok_iff.1 hopen
    exact Nat.le_add_right _ _

/-- Going on to the next item keeps the bounds and the readout, and never goes back. -/
theorem InBounds.next {d : Decoder} (hb : d.InBounds) :
    d.next.2.InBounds ∧ d.next.2.words = d.words ∧ d.pos ≤ d.next.2.pos := by
  fun_induction Decoder.next d with
  | case1 d hf => exact ⟨hb, rfl, Nat.le_refl _⟩
  | case2 d hf e hp => exact ⟨⟨hb.pos_le, hb.boardStop_le, hb.group⟩, rfl, Nat.le_refl _⟩
  | case3 d hf hp e d' hstep =>
    exact ⟨hb.event hstep, (event_keeps hstep).1, event_pos hstep ▸ Nat.le_add_right _ _⟩
  | case4 d hf hp d' hstep ih =>
    obtain ⟨hb', hwords, hpos⟩ := ih (hb.moved hstep)
    exact ⟨hb', hwords.trans (moved_keeps hstep).1, (moved_pos_le hstep).trans hpos⟩
  | case5 d hf hp hstep => exact ⟨⟨hb.pos_le, hb.boardStop_le, hb.group⟩, rfl, Nat.le_refl _⟩
  | case6 d hf hp e hstep => exact ⟨⟨hb.pos_le, hb.boardStop_le, hb.group⟩, rfl, Nat.le_refl _⟩

/-- An event is the last words in front of the decoder behind it, and none of those that were
behind the decoder before. -/
theorem next_event {d d' : Decoder} {e : RawEvent} (h : d.next = (some (.ok e), d')) :
    d.pending = none ∧ d.pos + e.format.stride ≤ d'.pos ∧
      e.words = (d.words.extract (d'.pos - e.format.stride) d'.pos).toList := by
  fun_induction next d with
  | case1 d hf => cases h
  | case2 d hf e' hp => cases h
  | case3 d hf hp e' d₁ hstep =>
    cases h
    obtain ⟨g, -, -, rfl, rfl⟩ := step_event hstep
    refine ⟨hp, Nat.le_refl _, ?_⟩
    simp only [window, Nat.add_sub_cancel]
  | case4 d hf hp d₁ hstep ih =>
    obtain ⟨hp', hpos, hwords⟩ := ih h
    exact ⟨hp, (Nat.add_le_add_right (moved_pos_le hstep) _).trans hpos,
      (moved_keeps hstep).1 ▸ hwords⟩
  | case5 d hf hp hstep => cases h
  | case6 d hf hp e' hstep => cases h

/-- Behind anything but an event the decoder has ended. -/
theorem finished_of_next {d : Decoder} (h : ∀ e, d.next.1 ≠ some (.ok e)) :
    d.next.2.finished = true := by
  fun_induction next d with
  | case1 d hf => exact hf
  | case2 d hf e hp => rfl
  | case3 d hf hp e d' hstep => exact absurd rfl (h e)
  | case4 d hf hp d' hstep ih => exact ih h
  | case5 d hf hp hstep => rfl
  | case6 d hf hp e hstep => rfl

theorem next_of_finished {d : Decoder} (h : d.finished = true) : d.next = (none, d) := by
  rw [next, if_pos h]

/-- The decoder of some bytes behind so many items. -/
def after (bytes : Bytes) : Nat → Decoder
  | 0 => ofBytes bytes
  | n + 1 => (after bytes n).next.2

/-- Item number `n`, if there is one. -/
def answer (bytes : Bytes) (n : Nat) : Option (Except DecodeError RawEvent) :=
  (after bytes n).next.1

/-- The decoder of some bytes between two items, or on the way to one. -/
inductive Reached (bytes : Bytes) : Decoder → Prop where
  | start : Reached bytes (ofBytes bytes)
  | moved {d d' : Decoder} : Reached bytes d → d.finished = false → d.pending = none →
      d.step = .moved d' → Reached bytes d'
  | next {d : Decoder} : Reached bytes d → Reached bytes d.next.2

theorem Reached.inBounds {bytes : Bytes} {d : Decoder} (h : Reached bytes d) :
    d.InBounds ∧ d.words = Bytes.toWords bytes := by
  induction h with
  | start => exact ⟨inBounds_ofBytes bytes, rfl⟩
  | moved _ _ _ hstep ih => exact ⟨ih.1.moved hstep, (moved_keeps hstep).1.trans ih.2⟩
  | next _ ih => exact ⟨ih.1.next.1, ih.1.next.2.1.trans ih.2⟩

theorem reached_after (bytes : Bytes) (n : Nat) : Reached bytes (after bytes n) := by
  induction n with
  | zero => exact .start
  | succ n ih => exact .next ih

section Answers

variable {bytes : Bytes} {m n : Nat} {e : RawEvent}

theorem pos_after_mono (bytes : Bytes) : Monotone fun n => (after bytes n).pos :=
  monotone_nat_of_le_succ fun n => (reached_after bytes n).inBounds.1.next.2.2

/-- An ended decoder stays as it is. -/
theorem after_of_finished (h : (after bytes m).finished = true) (hmn : m ≤ n) :
    after bytes n = after bytes m := by
  induction n, hmn using Nat.le_induction with
  | base => rfl
  | succ n _ ih => rw [after, ih, next_of_finished h]

/-- Behind anything but an event there is nothing more. -/
theorem answer_behind (h : ∀ e, answer bytes m ≠ some (.ok e)) (hmn : m < n) :
    answer bytes n = none := by
  have hf : (after bytes (m + 1)).finished = true := finished_of_next h
  rw [answer, after_of_finished hf hmn, next_of_finished hf]

/-- What an event says about the decoder on both sides of it. -/
theorem event_after (h : answer bytes n = some (.ok e)) :
    (after bytes n).pending = none ∧
      (after bytes n).pos + e.format.stride ≤ (after bytes (n + 1)).pos ∧
      e.words = ((Bytes.toWords bytes).extract ((after bytes (n + 1)).pos - e.format.stride)
        (after bytes (n + 1)).pos).toList :=
  (reached_after bytes n).inBounds.2 ▸ next_event (Prod.ext h rfl)

/-- The cursor stays within the words of the bytes. -/
theorem pos_after_le (bytes : Bytes) (n : Nat) : (after bytes n).pos ≤ bytes.length / 4 := by
  obtain ⟨hb, hwords⟩ := (reached_after bytes n).inBounds
  rw [← Bytes.size_toWords, ← hwords]
  exact hb.pos_le.trans hb.boardStop_le

/-- There are events only in bytes of whole words. -/
theorem aligned_of_event (h : answer bytes n = some (.ok e)) : bytes.length % 4 = 0 := by
  by_contra hmisaligned
  have hfirst : answer bytes 0 = some (.error (.misaligned bytes.length)) := by
    simp [answer, after, next, ofBytes, hmisaligned]
  cases n with
  | zero =>
    rw [hfirst] at h
    cases h
  | succ n =>
    rw [answer_behind (m := 0) (by simp [hfirst]) n.succ_pos] at h
    cases h

/-- Every event has used up two words at least. -/
theorem two_mul_le_pos (h : answer bytes n ≠ none) : 2 * n ≤ (after bytes n).pos := by
  induction n with
  | zero => exact Nat.zero_le _
  | succ n ih =>
    -- Anything but an event would have been the last item.
    have hevent : ∃ e, answer bytes n = some (.ok e) := by
      by_contra hno
      exact h (answer_behind (fun e he => hno ⟨e, he⟩) n.lt_succ_self)
    obtain ⟨e, he⟩ := hevent
    have hpos := (event_after he).2.1
    have htwo := e.format.two_le_stride
    have hbefore := ih (by rw [he]; nofun)
    omega

/-- The byte at which event number `n` begins; it ends where the cursor stands behind it. -/
def windowStart (bytes : Bytes) (n : Nat) (e : RawEvent) : Nat :=
  (after bytes (n + 1)).offset - 4 * e.format.stride

/-- An event is a slice of the bytes, of as many as its format asks for. -/
theorem window_eq (h : answer bytes n = some (.ok e)) :
    windowStart bytes n e + 4 * e.format.stride ≤ bytes.length ∧
      e.words.length = e.format.stride ∧
      e.bytes = (bytes.drop (windowStart bytes n e)).take (4 * e.format.stride) := by
  obtain ⟨-, hpos, hwords⟩ := event_after h
  have hle := pos_after_le bytes (n + 1)
  have hsize := Bytes.size_toWords bytes
  have hstart : windowStart bytes n e = 4 * ((after bytes (n + 1)).pos - e.format.stride) := by
    rw [windowStart, offset, Nat.mul_sub]
  have hlength : (after bytes (n + 1)).pos - ((after bytes (n + 1)).pos - e.format.stride) =
      e.format.stride := by omega
  have hslice : e.words = ((Bytes.toWords bytes).toList.drop
      ((after bytes (n + 1)).pos - e.format.stride)).take e.format.stride := by
    rw [hwords, Array.toList_extract, List.extract_eq_take_drop, hlength]
  refine ⟨by omega, ?_, ?_⟩
  · rw [hslice, List.length_take, List.length_drop, Array.length_toList]
    omega
  · rw [RawEvent.bytes, hslice, Bytes.ofWords_slice,
      Bytes.ofWords_toWords _ (aligned_of_event h), hstart]

end Answers

/-! ## Main result -/

/-- What can be relied on when bytes are decoded, whatever they are. -/
structure ReadsSafely (bytes : Bytes) : Prop where
  /-- The cursor is inside the open group, that inside the board, and that inside the bytes. -/
  bounds : ∀ d, Reached bytes d → d.pos ≤ d.boardStop ∧ 4 * d.boardStop ≤ bytes.length ∧
    ∀ g, d.group = some g → d.pos ≤ g.stop ∧ g.stop ≤ d.boardStop
  /-- No move misses a word or takes a negative difference. -/
  defined : ∀ d, Reached bytes d → d.step? = some d.step
  /-- Every word that an event is asked for is there. -/
  whole : ∀ n e, answer bytes n = some (.ok e) → e.Whole
  /-- An event is a slice of the bytes. -/
  window : ∀ n e, answer bytes n = some (.ok e) →
    e.bytes.length = 4 * e.format.stride ∧
      windowStart bytes n e + 4 * e.format.stride ≤ bytes.length ∧
      e.bytes = (bytes.drop (windowStart bytes n e)).take (4 * e.format.stride)
  /-- Each event begins behind those before it. -/
  ascending : ∀ m n e e', m < n → answer bytes m = some (.ok e) → answer bytes n = some (.ok e') →
    windowStart bytes m e + 4 * e.format.stride ≤ windowStart bytes n e'
  /-- There is an end. -/
  ends : ∀ n, bytes.length / 8 + 1 ≤ n → answer bytes n = none
  /-- Nothing follows the end or an error. -/
  fused : ∀ m n, m < n → (answer bytes m = none ∨ ∃ e, answer bytes m = some (.error e)) →
    answer bytes n = none

/-- Any bytes whatsoever are decoded safely. -/
theorem readsSafely (bytes : Bytes) : ReadsSafely bytes where
  bounds d hd := by
    obtain ⟨hb, hwords⟩ := hd.inBounds
    have hstop := hb.boardStop_le
    rw [hwords, Bytes.size_toWords] at hstop
    exact ⟨hb.pos_le, by omega, fun g hg => ⟨(hb.group g hg).1, (hb.group g hg).2.1⟩⟩
  defined _ hd := hd.inBounds.1.step?_eq
  whole _ _ h := RawEvent.whole_of_length (window_eq h).2.1
  window n e h := by
    obtain ⟨hle, hlength, hbytes⟩ := window_eq h
    exact ⟨by rw [RawEvent.bytes, Bytes.length_ofWords, hlength], hle, hbytes⟩
  ascending m n e e' hmn h h' := by
    have hmono := pos_after_mono bytes (show m + 1 ≤ n from hmn)
    have hbehind := (event_after h).2.1
    have hbehind' := (event_after h').2.1
    simp only [windowStart, offset] at hmono ⊢
    omega
  ends n hn := by
    by_contra h
    have hpos := two_mul_le_pos h
    have hle := pos_after_le bytes n
    omega
  fused m n hmn h := by
    refine answer_behind (fun e he => ?_) hmn
    obtain hnone | ⟨e', herror⟩ := h
    · cases hnone.symm.trans he
    · cases herror.symm.trans he

end Decoder

end PulseDaq
