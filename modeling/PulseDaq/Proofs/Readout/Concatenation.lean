import PulseDaq.Proofs.Readout.Acceptance
import PulseDaq.Proofs.Readout.Safety

/-!
# Readouts one behind the other

A readout that is read without an error leaves nothing behind in the decoder: what follows it is
read as if it stood alone, only that its byte positions are counted from the first byte.

* `Decoder.extend`: the decoder with more words at the end of its readout. As long as it yields
  events it does not notice them (`InBounds.next_extend`).
* `Decoder.behind`: the decoder with more words in front of its readout. It does the same, and every
  position that it states is moved by as much (`next_behind`).
* `InBounds.next_extend_end`: at the end of the first readout the one is the other.
* `Decoder.items_append`: the main result.
-/

namespace PulseDaq

/-! ## Shifted positions -/

/-- The error in a readout that has `n` more bytes in front. -/
def DecodeError.shift (n : Nat) : DecodeError → DecodeError
  | .misaligned size => .misaligned size
  | .boardMagic offset word => .boardMagic (n + offset) word
  | .boardLength offset words available => .boardLength (n + offset) words available
  | .missingGroup offset group => .missingGroup (n + offset) group
  | .groupHeader offset word => .groupHeader (n + offset) word
  | .groupLength offset words available => .groupLength (n + offset) words available
  | .format offset word => .format (n + offset) word
  | .stride offset words size => .stride (n + offset) words size
  | .trailing offset stop => .trailing (n + offset) (n + stop)

/-- What the decoder yields in a readout that has `n` more bytes in front. An event holds no
position. -/
def Decoder.Item.shift (n : Nat) (i : Decoder.Item) : Decoder.Item where
  result := i.result.mapError (·.shift n)
  offset := n + i.offset

/-- The open group in a readout that has `n` more words in front. -/
def OpenGroup.shift (n : Nat) (g : OpenGroup) : OpenGroup :=
  { g with stop := n + g.stop }

theorem Bytes.toWords_append {a b : Bytes} (ha : a.length % 4 = 0) (hb : b.length % 4 = 0) :
    toWords (a ++ b) = toWords a ++ toWords b := by
  have h := toWords_ofWords ((toWords a).toList ++ (toWords b).toList)
  rw [ofWords_append, ofWords_toWords a ha, ofWords_toWords b hb] at h
  rw [h]
  simp

namespace Decoder

/-! ## Moves and items -/

theorem step_of_lt {d : Decoder} {g : OpenGroup} (hg : d.group = some g) (hlt : d.pos < g.stop) :
    d.step = .event (d.window g) { d with pos := d.pos + g.format.stride } := by
  simp [step, hg, hlt]

theorem step_of_le {d : Decoder} {g : OpenGroup} (hg : d.group = some g) (hle : g.stop ≤ d.pos) :
    d.step = .moved { d with group := none } := by
  have hlt : ¬d.pos < g.stop := Nat.not_lt.2 hle
  simp [step, hg, hlt]

section Next

variable {d d' : Decoder} (hf : ¬d.finished = true) (hp : d.pending = none)
include hf hp

theorem next_of_event {e : RawEvent} (h : d.step = .event e d') : d.next = (some (.ok e), d') := by
  rw [next, if_neg hf, hp]
  simp only
  rw [h]

theorem next_of_moved (h : d.step = .moved d') : d.next = d'.next := by
  rw [next, if_neg hf, hp]
  simp only
  rw [h]

theorem next_of_done (h : d.step = .done) : d.next = (none, { d with finished := true }) := by
  rw [next, if_neg hf, hp]
  simp only
  rw [h]

theorem next_of_failed {e : DecodeError} (h : d.step = .failed e) :
    d.next = (some (.error e), { d with finished := true }) := by
  rw [next, if_neg hf, hp]
  simp only
  rw [h]

end Next

/-! ## More words at the end -/

/-- The decoder of a readout that goes on with `back`. -/
def extend (d : Decoder) (back : Array UInt32) : Decoder :=
  { d with words := d.words ++ back }

section Extend

variable {d d' : Decoder} (back : Array UInt32)

@[simp] theorem pos_extend : (d.extend back).pos = d.pos := rfl

@[simp] theorem size_extend : (d.extend back).words.size = d.words.size + back.size :=
  Array.size_append

theorem word_extend {i : Nat} (h : i < d.words.size) : (d.extend back).word i = d.word i := by
  simp only [word, extend, Array.getD_eq_getD_getElem?]
  rw [Array.getElem?_append_left h]

theorem remaining_extend (h : d.pos ≤ d.words.size) :
    (d.extend back).remaining = d.remaining ++ back.toList := by
  simp only [remaining, extend, Array.toList_append]
  rw [List.drop_append_of_le_length (by simpa using h)]

/-- The window of an event holds no word behind the end of its group. -/
theorem window_extend {g : OpenGroup} (h : d.pos + g.format.stride ≤ d.words.size) :
    (d.extend back).window g = d.window g := by
  have hwords : ((d.extend back).window g).words = (d.window g).words := by
    rw [window_words, window_words, remaining_extend back (by omega),
      List.take_append_of_le_length (by rw [length_remaining]; omega)]
  simp only [window] at hwords ⊢
  rw [hwords]

theorem InBounds.event_extend {e : RawEvent} (hb : d.InBounds) (h : d.step = .event e d') :
    (d.extend back).step = .event e (d'.extend back) := by
  obtain ⟨g, hg, hlt, rfl, rfl⟩ := step_event h
  obtain ⟨-, hstop, hdvd⟩ := hb.group g hg
  have hfits : g.format.stride ≤ g.stop - d.pos := Nat.le_of_dvd (by omega) hdvd
  have hsize := hb.boardStop_le
  have hwindow := window_extend back (d := d) (g := g) (by omega)
  rw [step_of_lt (d := d.extend back) hg hlt, hwindow]
  rfl

theorem openBoard_extend (h : d.openBoard = .ok d') :
    (d.extend back).openBoard = .ok (d'.extend back) := by
  obtain ⟨havailable, hmagic, hlow, hhigh, rfl⟩ := openBoard_eq_ok_iff.1 h
  have hroom : d.words.size - d.pos ≤ (d.extend back).words.size - (d.extend back).pos := by
    rw [size_extend, pos_extend]
    omega
  have hheader : (d.extend back).word d.pos = d.word d.pos :=
    word_extend back (by simp only [headerWords] at havailable; omega)
  have hmask : (d.extend back).word (d.pos + 1) = d.word (d.pos + 1) :=
    word_extend back (by simp only [headerWords] at havailable; omega)
  refine openBoard_eq_ok_iff.2 ⟨havailable.trans hroom, ?_, ?_, ?_, ?_⟩
  · rw [pos_extend, hheader]; exact hmagic
  · rw [pos_extend, hheader]; exact hlow
  · rw [pos_extend, hheader]; exact hhigh.trans hroom
  · rw [pos_extend, hheader, hmask]; rfl

theorem InBounds.openGroup_extend {index : Group} {rest : List Group} (hb : d.InBounds)
    (h : d.openGroup index rest = .ok d') :
    (d.extend back).openGroup index rest = .ok (d'.extend back) := by
  obtain ⟨havailable, hmark, hlow, hhigh, format, hformat, hdvd, rfl⟩ := openGroup_eq_ok_iff.1 h
  have hstop := hb.boardStop_le
  have hheader : (d.extend back).word d.pos = d.word d.pos :=
    word_extend back (by simp only [headerWords] at havailable; omega)
  have hword : (d.extend back).word (d.pos + 1) = d.word (d.pos + 1) :=
    word_extend back (by simp only [headerWords] at havailable; omega)
  refine openGroup_eq_ok_iff.2 ⟨havailable, ?_, ?_, ?_, format, ?_, ?_, ?_⟩
  · rw [pos_extend, hheader]; exact hmark
  · rw [pos_extend, hheader]; exact hlow
  · rw [pos_extend, hheader]; exact hhigh
  · rw [pos_extend, hword]; exact hformat
  · rw [pos_extend, hheader]; exact hdvd
  · rw [pos_extend, hheader]; rfl

theorem InBounds.moved_extend (hb : d.InBounds) (h : d.step = .moved d') :
    (d.extend back).step = .moved (d'.extend back) := by
  obtain ⟨g, hg, hle, rfl⟩ | ⟨index, rest, hg, hgroups, hlt, hopen⟩ | ⟨hg, hgroups, hle, hopen⟩ :=
    step_moved h
  · exact step_of_le (d := d.extend back) hg hle
  · exact step_of_openGroup hg hgroups hlt (hb.openGroup_extend back hopen)
  · refine step_of_openBoard hg hgroups hle ?_ (openBoard_extend back hopen)
    obtain ⟨havailable, -⟩ := openBoard_eq_ok_iff.1 hopen
    simp only [headerWords] at havailable
    rw [size_extend, pos_extend]
    omega

/-- A decoder that still finds an event finds it whatever the readout goes on with. -/
theorem InBounds.next_extend {e : RawEvent} (hb : d.InBounds)
    (h : d.next = (some (.ok e), d')) :
    (d.extend back).next = (some (.ok e), d'.extend back) := by
  fun_induction Decoder.next d with
  | case1 d hf => cases h
  | case2 d hf e' hp => cases h
  | case3 d hf hp e' d₁ hstep =>
    cases h
    rw [next_of_event (d := d.extend back) hf hp (hb.event_extend back hstep)]
  | case4 d hf hp d₁ hstep ih =>
    rw [next_of_moved (d := d.extend back) hf hp (hb.moved_extend back hstep)]
    exact ih (hb.moved hstep) h
  | case5 d hf hp hstep => cases h
  | case6 d hf hp e' hstep => cases h

end Extend

/-! ## More words in front -/

/-- The decoder of a readout that has `front` in front. -/
def behind (front : Array UInt32) (d : Decoder) : Decoder where
  words := front ++ d.words
  pos := front.size + d.pos
  boardStop := front.size + d.boardStop
  groups := d.groups
  group := d.group.map (.shift front.size)
  pending := d.pending.map (.shift (4 * front.size))
  finished := d.finished

/-- The same move, behind `front`. -/
def Step.behind (front : Array UInt32) : Step → Step
  | .event e d => .event e (d.behind front)
  | .moved d => .moved (d.behind front)
  | .done => .done
  | .failed e => .failed (e.shift (4 * front.size))

section Behind

variable (front : Array UInt32) (d : Decoder)

@[simp] theorem pos_behind : (d.behind front).pos = front.size + d.pos := rfl

@[simp] theorem boardStop_behind : (d.behind front).boardStop = front.size + d.boardStop := rfl

@[simp] theorem size_behind : (d.behind front).words.size = front.size + d.words.size :=
  Array.size_append

theorem offset_behind : (d.behind front).offset = 4 * front.size + d.offset := by
  rw [offset, pos_behind, Nat.mul_add]
  rfl

/-- What is in front of the cursor is the same. -/
theorem remaining_of_behind : (d.behind front).remaining = d.remaining := by
  simp only [remaining, behind, Array.toList_append]
  rw [← Array.length_toList, List.drop_length_add_append]

theorem word_behind (i : Nat) :
    (d.behind front).word (front.size + d.pos + i) = d.word (d.pos + i) := by
  rw [word_pos_add d i, ← remaining_of_behind front d, ← word_pos_add]
  rfl

theorem window_behind (g : OpenGroup) :
    (d.behind front).window (g.shift front.size) = d.window g := by
  have hwords : ((d.behind front).window (g.shift front.size)).words = (d.window g).words := by
    rw [window_words, window_words, remaining_of_behind]
    rfl
  simp only [window] at hwords ⊢
  rw [hwords]
  rfl

theorem openBoard_behind : (d.behind front).openBoard =
    (d.openBoard.mapError (·.shift (4 * front.size))).map (·.behind front) := by
  have hroom : (d.behind front).words.size - (front.size + d.pos) = d.words.size - d.pos := by
    rw [size_behind, Nat.add_sub_add_left]
  have hheader := word_behind front d 0
  have hmask := word_behind front d 1
  rw [Nat.add_zero, Nat.add_zero] at hheader
  unfold openBoard
  simp only [offset_behind, pos_behind, hroom, hheader, hmask]
  by_cases havailable : d.words.size - d.pos < headerWords
  · simp only [havailable, if_true]
    rfl
  by_cases hmagic : Word.field (d.word d.pos) 28 4 = boardMagic
  swap
  · simp only [havailable, hmagic, ne_eq, not_false_eq_true, if_true, if_false]
    rfl
  by_cases hsize : Word.field (d.word d.pos) 0 28 < headerWords ∨
      d.words.size - d.pos < Word.field (d.word d.pos) 0 28
  · simp only [havailable, hmagic, hsize, ne_eq, not_true_eq_false, if_true, if_false]
    rfl
  · simp only [havailable, hmagic, hsize, ne_eq, not_true_eq_false, if_false, Except.mapError,
      Except.map, behind, Nat.add_assoc]

theorem openGroup_behind (index : Group) (rest : List Group) :
    (d.behind front).openGroup index rest =
      ((d.openGroup index rest).mapError (·.shift (4 * front.size))).map (·.behind front) := by
  have hroom : (d.behind front).boardStop - (front.size + d.pos) = d.boardStop - d.pos := by
    rw [boardStop_behind, Nat.add_sub_add_left]
  have hheader := word_behind front d 0
  have hword := word_behind front d 1
  rw [Nat.add_zero, Nat.add_zero] at hheader
  unfold openGroup
  simp only [offset_behind, pos_behind, hroom, hheader, hword]
  by_cases havailable : d.boardStop - d.pos < headerWords
  · simp only [havailable, if_true]
    rfl
  by_cases hmark : Word.bit (d.word d.pos) 31 = true
  swap
  · simp only [havailable, hmark, if_true, if_false, Bool.not_false]
    rfl
  by_cases hsize : Word.field (d.word d.pos) 0 31 < headerWords ∨
      d.boardStop - d.pos < Word.field (d.word d.pos) 0 31
  · simp only [havailable, hmark, hsize, if_true, if_false, Bool.not_true, Bool.false_eq_true]
    rfl
  simp only [havailable, hmark, hsize, if_false, Bool.not_true, Bool.false_eq_true]
  cases GroupFormat.ofWord? (d.word (d.pos + 1)) with
  | none => rfl
  | some format =>
    by_cases hstride : (Word.field (d.word d.pos) 0 31 - headerWords) % format.stride = 0
    · simp only [hstride, ne_eq, not_true_eq_false, if_false, Except.mapError, Except.map, behind,
        Nat.add_assoc]
      rfl
    · simp only [hstride, ne_eq, not_false_eq_true, if_true]
      rfl

/-- Behind `front` the decoder makes the same moves. -/
theorem step_behind : (d.behind front).step = d.step.behind front := by
  cases hg : d.group with
  | some g =>
    have hg' : (d.behind front).group = some (g.shift front.size) := by
      simp only [behind, hg, Option.map_some]
    by_cases hlt : d.pos < g.stop
    · have hlt' : (d.behind front).pos < (g.shift front.size).stop := Nat.add_lt_add_left hlt _
      rw [step_of_lt hg hlt, step_of_lt hg' hlt', window_behind, Step.behind]
      simp only [behind, OpenGroup.shift, Nat.add_assoc]
    · have hle : g.stop ≤ d.pos := Nat.le_of_not_lt hlt
      rw [step_of_le hg hle, step_of_le hg' (Nat.add_le_add_left hle _)]
      rfl
  | none =>
    have hg' : (d.behind front).group = none := by simp only [behind, hg, Option.map_none]
    have hgroups : (d.behind front).groups = d.groups := rfl
    unfold step
    simp only [hg, hg', hgroups, openBoard_behind, openGroup_behind, offset_behind, pos_behind,
      boardStop_behind, size_behind, Nat.add_lt_add_iff_left, Nat.add_left_cancel_iff]
    cases d.groups with
    | cons index rest =>
      by_cases hlt : d.pos < d.boardStop
      · simp only [hlt, if_true]
        cases d.openGroup index rest <;> rfl
      · simp only [hlt, if_false]
        rfl
    | nil =>
      by_cases hlt : d.pos < d.boardStop
      · simp only [hlt, if_true, Nat.mul_add]
        rfl
      by_cases hend : d.pos = d.words.size
      · rw [if_neg hlt, if_neg hlt, if_pos hend, if_pos hend]
        rfl
      rw [if_neg hlt, if_neg hlt, if_neg hend, if_neg hend]
      cases d.openBoard <;> rfl

/-- Behind `front` the decoder yields the same, at shifted positions. -/
theorem next_behind : (d.behind front).next =
    (d.next.1.map (·.mapError (·.shift (4 * front.size))), d.next.2.behind front) := by
  have hstep' := step_behind front
  fun_induction Decoder.next d with
  | case1 d hf =>
    rw [next_of_finished (d := d.behind front) hf]
    rfl
  | case2 d hf e hp =>
    have hp' : (d.behind front).pending = some (e.shift (4 * front.size)) := by
      simp only [behind, hp, Option.map_some]
    rw [next, if_neg (show ¬(d.behind front).finished = true from hf), hp']
    rfl
  | case3 d hf hp e d' hstep =>
    rw [next_of_event (d := d.behind front) hf (by simp [behind, hp]) (by rw [hstep', hstep]; rfl)]
    rfl
  | case4 d hf hp d' hstep ih =>
    rw [next_of_moved (d := d.behind front) hf (by simp [behind, hp]) (by rw [hstep', hstep]; rfl)]
    exact ih
  | case5 d hf hp hstep =>
    rw [next_of_done (d := d.behind front) hf (by simp [behind, hp]) (by rw [hstep', hstep]; rfl)]
    rfl
  | case6 d hf hp e hstep =>
    rw [next_of_failed (d := d.behind front) hf (by simp [behind, hp]) (by rw [hstep', hstep]; rfl)]
    rfl

end Behind

/-! ## One readout behind the other -/

/-- At the end of a readout that is followed by another one, the decoder is that of the other one,
behind the first. -/
theorem InBounds.next_extend_end {d d' : Decoder} {back : Bytes} (hback : back.length % 4 = 0)
    (hb : d.InBounds) (hf : d.finished = false) (hp : d.pending = none)
    (h : d.next = (none, d')) :
    (d.extend (Bytes.toWords back)).next = ((ofBytes back).behind d.words).next := by
  fun_induction Decoder.next d with
  | case1 d hf' => rw [hf] at hf'; cases hf'
  | case2 d hf' e hp' => cases h
  | case3 d hf' hp' e d₁ hstep => cases h
  | case4 d hf' hp' d₁ hstep ih =>
    obtain ⟨hwords, hp₁, hf₁⟩ := moved_keeps hstep
    rw [next_of_moved (d := d.extend _) hf' hp' (hb.moved_extend _ hstep), ← hwords]
    exact ih (hb.moved hstep) (hf₁.trans hf) (hp₁.trans hp) h
  | case5 d hf' hp' hstep =>
    obtain ⟨hg, hgroups, hle, hend⟩ := step_done hstep
    have hpos := hb.pos_le
    have hstop : d.boardStop = d.words.size := by omega
    have hsame : d.extend (Bytes.toWords back) = (ofBytes back).behind d.words := by
      simp only [extend, behind, ofBytes, hg, hgroups, hend, hstop, hf, hp, hback, if_true,
        Nat.add_zero, Option.map_none]
    rw [hsame]
  | case6 d hf' hp' e hstep => cases h

/-- Behind an event the decoder has not ended. -/
theorem next_event_keeps {d d' : Decoder} {e : RawEvent} (h : d.next = (some (.ok e), d')) :
    d'.finished = false ∧ d'.pending = none := by
  fun_induction Decoder.next d with
  | case1 d hf => cases h
  | case2 d hf e' hp => cases h
  | case3 d hf hp e' d₁ hstep =>
    cases h
    obtain ⟨-, hp', hf'⟩ := event_keeps hstep
    exact ⟨hf'.trans (by simpa using hf), hp'.trans hp⟩
  | case4 d hf hp d₁ hstep ih => exact ih h
  | case5 d hf hp hstep => cases h
  | case6 d hf hp e' hstep => cases h

/-- The decoder behind `n` items still has the others. -/
theorem toList_items_after (bytes : Bytes) (n : Nat) :
    (after bytes n).items.toList = (ofBytes bytes).items.toList.drop n := by
  induction n with
  | zero => rfl
  | succ n ih =>
    have hdrop : (ofBytes bytes).items.toList.drop (n + 1) =
        ((ofBytes bytes).items.toList.drop n).drop 1 := by rw [List.drop_drop]
    rw [hdrop, ← ih]
    cases hnext : (after bytes n).next with
    | mk r d' =>
      have hafter : after bytes (n + 1) = d' := congrArg Prod.snd hnext
      rw [hafter]
      cases r with
      | some r =>
        rw [toList_items_of_next hnext]
        rfl
      | none =>
        obtain ⟨hitems, hend⟩ := items_of_next_eq_none hnext
        rw [hitems, items, if_pos hend]
        rfl

/-- Item number `n` with the cursor behind it, if there is one. -/
theorem getElem?_items (bytes : Bytes) (n : Nat) : (ofBytes bytes).items.toList[n]? =
    (answer bytes n).map fun r => ⟨r, (after bytes (n + 1)).offset⟩ := by
  have hhead : (ofBytes bytes).items.toList[n]? = (after bytes n).items.toList.head? := by
    rw [toList_items_after, List.head?_drop]
  rw [hhead, answer, after]
  cases hnext : (after bytes n).next with
  | mk r d' =>
    cases r with
    | some r =>
      rw [toList_items_of_next hnext]
      rfl
    | none =>
      rw [(items_of_next_eq_none hnext).1]
      rfl

section Append

/- The first readout `a` holds `m` events and no error. -/
variable {a b : Bytes} (ha : a.length % 4 = 0) (hb : b.length % 4 = 0) {m : Nat}
  (hevents : ∀ n < m, ∃ e, answer a n = some (.ok e)) (hend : answer a m = none)
include ha hb hevents

/-- In the first readout the decoder does not notice the second. -/
theorem after_append_of_le {n : Nat} (hn : n ≤ m) :
    after (a ++ b) n = (after a n).extend (Bytes.toWords b) := by
  induction n with
  | zero =>
    have hab : (a ++ b).length % 4 = 0 := by
      rw [List.length_append]
      omega
    simp only [after, ofBytes, extend, Bytes.toWords_append ha hb, ha, hab, if_true]
  | succ n ih =>
    obtain ⟨e, he⟩ := hevents n (by omega)
    have hnext : (after a n).next = (some (.ok e), after a (n + 1)) := Prod.ext he rfl
    have hbounds := (reached_after a n).inBounds.1
    rw [after, ih (by omega), hbounds.next_extend _ hnext]

theorem answer_append_of_lt {n : Nat} (hn : n < m) : answer (a ++ b) n = answer a n := by
  obtain ⟨e, he⟩ := hevents n hn
  have hnext : (after a n).next = (some (.ok e), after a (n + 1)) := Prod.ext he rfl
  have hbounds := (reached_after a n).inBounds.1
  rw [answer, after_append_of_le ha hb hevents hn.le, hbounds.next_extend _ hnext, he]

include hend

/-- Where the first readout ends, the decoder goes on as that of the second. -/
theorem next_after_append : (after (a ++ b) m).next =
    ((answer b 0).map (·.mapError (·.shift a.length)),
      (after b 1).behind (Bytes.toWords a)) := by
  have hopen : (after a m).finished = false ∧ (after a m).pending = none := by
    cases m with
    | zero => simp [after, ofBytes, ha]
    | succ m =>
      obtain ⟨e, he⟩ := hevents m m.lt_succ_self
      exact next_event_keeps (Prod.ext he rfl)
  obtain ⟨hbounds, hwords⟩ := (reached_after a m).inBounds
  have hsize : 4 * (Bytes.toWords a).size = a.length := by
    rw [Bytes.size_toWords]
    omega
  rw [after_append_of_le ha hb hevents (Nat.le_refl m),
    hbounds.next_extend_end hb hopen.1 hopen.2 (Prod.ext hend rfl), hwords, next_behind, hsize]
  rfl

theorem after_append_of_gt (n : Nat) :
    after (a ++ b) (m + n + 1) = (after b (n + 1)).behind (Bytes.toWords a) := by
  induction n with
  | zero => rw [after, Nat.add_zero, next_after_append ha hb hevents hend]
  | succ n ih =>
    rw [after, show m + (n + 1) = m + n + 1 from rfl, ih, next_behind]
    rfl

theorem answer_append_of_ge (n : Nat) :
    answer (a ++ b) (m + n) = (answer b n).map (·.mapError (·.shift a.length)) := by
  have hsize : 4 * (Bytes.toWords a).size = a.length := by
    rw [Bytes.size_toWords]
    omega
  cases n with
  | zero => rw [answer, Nat.add_zero, next_after_append ha hb hevents hend]
  | succ n =>
    rw [answer, show m + (n + 1) = m + n + 1 from rfl, after_append_of_gt ha hb hevents hend,
      next_behind, hsize]
    rfl

theorem offset_append_of_gt (n : Nat) :
    (after (a ++ b) (m + n + 1)).offset = a.length + (after b (n + 1)).offset := by
  rw [after_append_of_gt ha hb hevents hend, offset_behind, Bytes.size_toWords]
  omega

end Append

/-- What reading a readout without an error says about its items one after the other. -/
theorem answers_of_decode {a : Bytes} (hok : ∀ e, .error e ∉ decode a) :
    a.length % 4 = 0 ∧ (∀ n < (ofBytes a).items.size, ∃ e, answer a n = some (.ok e)) ∧
      answer a (ofBytes a).items.size = none := by
  refine ⟨?_, fun n hn => ?_, ?_⟩
  · by_contra h
    exact hok _ (by rw [decode_misaligned h]; exact List.mem_singleton.2 rfl)
  · have hitem := getElem?_items a n
    rw [List.getElem?_eq_getElem (by simpa using hn)] at hitem
    obtain ⟨r, hr, hitem⟩ := Option.map_eq_some_iff.1 hitem.symm
    have hmem : r ∈ decode a := by
      rw [decode]
      refine List.mem_map.2 ⟨_, List.getElem_mem (by simpa using hn), ?_⟩
      rw [← hitem]
    cases r with
    | ok e => exact ⟨e, hr⟩
    | error e => exact absurd hmem (hok e)
  · have hitem := getElem?_items a (ofBytes a).items.size
    rw [List.getElem?_eq_none (by simp)] at hitem
    exact Option.map_eq_none_iff.1 hitem.symm

/-- **Concatenation.** Behind a readout without an error, any other readout of whole words is read
as it is read alone, with its positions shifted. -/
theorem items_append {a b : Bytes} (hok : ∀ e, .error e ∉ decode a) (hb : b.length % 4 = 0) :
    (ofBytes (a ++ b)).items.toList =
        (ofBytes a).items.toList ++ (ofBytes b).items.toList.map (·.shift a.length) ∧
      (∀ n ≤ (ofBytes a).items.size, (after (a ++ b) n).offset = (after a n).offset) ∧
      ∀ n, (after (a ++ b) ((ofBytes a).items.size + n + 1)).offset =
        a.length + (after b (n + 1)).offset := by
  obtain ⟨ha, hevents, hend⟩ := answers_of_decode hok
  have hoffset : ∀ n ≤ (ofBytes a).items.size, (after (a ++ b) n).offset = (after a n).offset := by
    intro n hn
    rw [after_append_of_le ha hb hevents hn]
    rfl
  refine ⟨List.ext_getElem? fun n => ?_, hoffset, offset_append_of_gt ha hb hevents hend⟩
  rw [getElem?_items]
  by_cases hn : n < (ofBytes a).items.size
  · rw [List.getElem?_append_left (by simpa using hn), getElem?_items,
      answer_append_of_lt ha hb hevents hn, hoffset _ hn]
  · obtain ⟨k, rfl⟩ := Nat.exists_eq_add_of_le (Nat.le_of_not_lt hn)
    have hlen : (ofBytes a).items.toList.length = (ofBytes a).items.size := Array.length_toList
    rw [List.getElem?_append_right (by omega), hlen, Nat.add_sub_cancel_left,
      List.getElem?_map, getElem?_items, answer_append_of_ge ha hb hevents hend,
      offset_append_of_gt ha hb hevents hend, Option.map_map, Option.map_map]
    rfl

/-- Two boards with an event, and behind them a board whose group does not hold whole events. -/
theorem items_append_twoBoards :
    let a := Bytes.ofWords (boardsWords twoBoards)
    let b := Bytes.ofWords [0xA0000005, 1, 0x80000003, 0x60000000, 7]
    (∀ e, .error e ∉ decode a) ∧ b.length % 4 = 0 ∧
      (ofBytes (a ++ b)).items.toList =
        (ofBytes a).items.toList ++ (ofBytes b).items.toList.map (·.shift 44) ∧
      (∀ n, (after (a ++ b) ((ofBytes a).items.size + n + 1)).offset =
        44 + (after b (n + 1)).offset) ∧
      decode b = [.error (.stride 8 1 2)] := by
  intro a b
  have hok : ∀ e, .error e ∉ decode a := by
    intro e he
    rw [decode_of_boards (by decide) (by rw [Bytes.toWords_ofWords])] at he
    simp at he
  have hb : b.length % 4 = 0 := by decide
  have hlen : a.length = 44 := by decide
  obtain ⟨hitems, -, hoffset⟩ := items_append hok hb
  rw [hlen] at hitems
  refine ⟨hok, hb, hitems, fun n => hlen ▸ hoffset n, ?_⟩
  have hstart : ofBytes b = { words := #[0xA0000005, 1, 0x80000003, 0x60000000, 7] } := by
    rw [ofBytes, Bytes.toWords_ofWords, if_pos hb]
  have hboard : step { words := #[0xA0000005, 1, 0x80000003, 0x60000000, 7] } = .moved
      { words := #[0xA0000005, 1, 0x80000003, 0x60000000, 7]
        pos := 2
        boardStop := 5
        groups := [0] } := rfl
  rw [decode_eq_results hb, hstart, results_moved hboard, results_failed (e := .stride 8 1 2) rfl]

end Decoder

end PulseDaq
