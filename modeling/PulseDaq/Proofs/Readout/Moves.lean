import PulseDaq.Readout.Decoder

/-!
# Moves of the decoder

What one move of the decoder can do, said once, and what it yields along a run.

* `openBoard_eq_ok_iff`, `openGroup_eq_ok_iff`: when a header is accepted and what it leads to.
* `step_moved`, `step_event`, `step_done`: what each outcome of a move says about the decoder.
* `Decoder.results`: what the decoder yields from its present place on, with one equation for each
  outcome of a move. `toList_items_of_next` says that asking for one item after the other comes to
  the same.
* `Decoder.inductionOn`: induction along the moves.
* `Decoder.InBounds`: the cursor stays inside the open group, that inside the open board, and that
  inside the readout. Every move keeps this.
-/

namespace PulseDaq

namespace Decoder

/-! ## One move -/

/-- A board header is accepted if it has its magic and a size between its own and what is left. -/
theorem openBoard_eq_ok_iff {d d' : Decoder} :
    d.openBoard = .ok d' ↔
      headerWords ≤ d.words.size - d.pos ∧ Word.field (d.word d.pos) 28 4 = boardMagic ∧
        headerWords ≤ Word.field (d.word d.pos) 0 28 ∧
        Word.field (d.word d.pos) 0 28 ≤ d.words.size - d.pos ∧
        d' = { d with
          pos := d.pos + headerWords
          boardStop := d.pos + Word.field (d.word d.pos) 0 28
          groups := GroupMask.groups (Word.field (d.word (d.pos + 1)) 0 8) } := by
  simp only [openBoard]
  constructor
  · intro h
    split at h
    · cases h
    next havailable =>
      split at h
      · cases h
      next hmagic =>
        split at h
        · cases h
        next hsize =>
          cases h
          exact ⟨by omega, by omega, by omega, by omega, rfl⟩
  · rintro ⟨havailable, hmagic, hlow, hhigh, rfl⟩
    rw [if_neg (by omega), if_neg (by omega), if_neg (by omega)]

/-- A group header is accepted if it is marked, has a size between its own and what is left of
the board, and is followed by a readable format word whose stride divides what is left of the
group. -/
theorem openGroup_eq_ok_iff {d d' : Decoder} {index : Group} {rest : List Group} :
    d.openGroup index rest = .ok d' ↔
      headerWords ≤ d.boardStop - d.pos ∧ Word.bit (d.word d.pos) 31 = true ∧
        headerWords ≤ Word.field (d.word d.pos) 0 31 ∧
        Word.field (d.word d.pos) 0 31 ≤ d.boardStop - d.pos ∧
        ∃ format, GroupFormat.ofWord? (d.word (d.pos + 1)) = some format ∧
          format.stride ∣ Word.field (d.word d.pos) 0 31 - headerWords ∧
          d' = { d with
            pos := d.pos + headerWords
            groups := rest
            group := some ⟨index, format, d.pos + Word.field (d.word d.pos) 0 31⟩ } := by
  simp only [openGroup]
  constructor
  · intro h
    split at h
    · cases h
    next havailable =>
      split at h
      · cases h
      next hmark =>
        split at h
        · cases h
        next hsize =>
          split at h
          · cases h
          next format hformat =>
            split at h
            · cases h
            next hstride =>
              cases h
              exact ⟨by omega, by simpa using hmark, by omega, by omega, format, hformat,
                Nat.dvd_of_mod_eq_zero (Decidable.not_not.1 hstride), rfl⟩
  · rintro ⟨havailable, hmark, hlow, hhigh, format, hformat, hstride, rfl⟩
    rw [if_neg (by omega), if_neg (by simp [hmark]), if_neg (by omega)]
    simp [hformat, Nat.mod_eq_zero_of_dvd hstride]

/-- An event is the window at the cursor in the open group. -/
theorem step_event {d d' : Decoder} {e : RawEvent} (h : d.step = .event e d') :
    ∃ g, d.group = some g ∧ d.pos < g.stop ∧ e = d.window g ∧
      d' = { d with pos := d.pos + g.format.stride } := by
  unfold step at h
  split at h
  next g hg =>
    split at h
    next hlt =>
      cases h
      exact ⟨g, hg, hlt, rfl, rfl⟩
    · cases h
  · split at h
    · split at h
      · split at h <;> cases h
      · cases h
    · split at h
      · cases h
      · split at h
        · cases h
        · split at h <;> cases h

/-- A move without an event closes the open group, opens the next group of the open board, or opens
the next board. -/
theorem step_moved {d d' : Decoder} (h : d.step = .moved d') :
    (∃ g, d.group = some g ∧ g.stop ≤ d.pos ∧ d' = { d with group := none }) ∨
    (∃ index rest, d.group = none ∧ d.groups = index :: rest ∧ d.pos < d.boardStop ∧
      d.openGroup index rest = .ok d') ∨
    (d.group = none ∧ d.groups = [] ∧ d.boardStop ≤ d.pos ∧ d.openBoard = .ok d') := by
  unfold step at h
  split at h
  next g hg =>
    split at h
    · cases h
    next hle =>
      cases h
      exact .inl ⟨g, hg, Nat.le_of_not_lt hle, rfl⟩
  next hg =>
    split at h
    next index rest hgroups =>
      split at h
      next hlt =>
        split at h
        next hopen =>
          cases h
          exact .inr (.inl ⟨index, rest, hg, hgroups, hlt, hopen⟩)
        · cases h
      · cases h
    next hgroups =>
      split at h
      · cases h
      next hle =>
        split at h
        · cases h
        · split at h
          next hopen =>
            cases h
            exact .inr (.inr ⟨hg, hgroups, Nat.le_of_not_lt hle, hopen⟩)
          · cases h

theorem step_of_openGroup {d d' : Decoder} {index : Group} {rest : List Group}
    (hgroup : d.group = none) (hgroups : d.groups = index :: rest) (hlt : d.pos < d.boardStop)
    (hopen : d.openGroup index rest = .ok d') : d.step = .moved d' := by
  simp [step, hgroup, hgroups, hlt, hopen]

theorem step_of_openBoard {d d' : Decoder} (hgroup : d.group = none) (hgroups : d.groups = [])
    (hle : d.boardStop ≤ d.pos) (hend : d.pos ≠ d.words.size) (hopen : d.openBoard = .ok d') :
    d.step = .moved d' := by
  have hlt : ¬d.pos < d.boardStop := Nat.not_lt.2 hle
  simp [step, hgroup, hgroups, hlt, hend, hopen]

/-- The decoder is done when nothing is open and the readout is used up. -/
theorem step_done {d : Decoder} (h : d.step = .done) :
    d.group = none ∧ d.groups = [] ∧ d.boardStop ≤ d.pos ∧ d.pos = d.words.size := by
  unfold step at h
  split at h
  · split at h <;> cases h
  next hg =>
    split at h
    · split at h
      · split at h <;> cases h
      · cases h
    next hgroups =>
      split at h
      · cases h
      next hle =>
        split at h
        next hend => exact ⟨hg, hgroups, Nat.le_of_not_lt hle, hend⟩
        · split at h <;> cases h

/-- An event changes neither the readout nor how the decoder stands to its end. -/
theorem event_keeps {d d' : Decoder} {e : RawEvent} (h : d.step = .event e d') :
    d'.words = d.words ∧ d'.pending = d.pending ∧ d'.finished = d.finished := by
  obtain ⟨g, -, -, -, rfl⟩ := step_event h
  exact ⟨rfl, rfl, rfl⟩

/-- A move without an event changes neither the readout nor how the decoder stands to its end. -/
theorem moved_keeps {d d' : Decoder} (h : d.step = .moved d') :
    d'.words = d.words ∧ d'.pending = d.pending ∧ d'.finished = d.finished := by
  obtain ⟨g, -, -, rfl⟩ | ⟨index, rest, -, -, -, hopen⟩ | ⟨-, -, -, hopen⟩ := step_moved h
  · exact ⟨rfl, rfl, rfl⟩
  · obtain ⟨-, -, -, -, format, -, -, rfl⟩ := openGroup_eq_ok_iff.1 hopen
    exact ⟨rfl, rfl, rfl⟩
  · obtain ⟨-, -, -, -, rfl⟩ := openBoard_eq_ok_iff.1 hopen
    exact ⟨rfl, rfl, rfl⟩

/-! ## Bounds -/

/-- The cursor is inside the open group, that inside the open board, and that inside the readout.
What is left of the open group is a whole number of events. -/
structure InBounds (d : Decoder) : Prop where
  pos_le : d.pos ≤ d.boardStop
  boardStop_le : d.boardStop ≤ d.words.size
  group : ∀ g, d.group = some g →
    d.pos ≤ g.stop ∧ g.stop ≤ d.boardStop ∧ g.format.stride ∣ g.stop - d.pos

theorem inBounds_ofBytes (bytes : Bytes) : (ofBytes bytes).InBounds where
  pos_le := Nat.le_refl _
  boardStop_le := Nat.zero_le _
  group := by simp [ofBytes]

/-- An event fits into its group, because what was left of that is a multiple of its stride. -/
theorem InBounds.event {d d' : Decoder} {e : RawEvent} (hb : d.InBounds)
    (h : d.step = .event e d') : d'.InBounds := by
  obtain ⟨g, hg, hlt, -, rfl⟩ := step_event h
  obtain ⟨-, hstop, hdvd⟩ := hb.group g hg
  have hfits : g.format.stride ≤ g.stop - d.pos := Nat.le_of_dvd (by omega) hdvd
  have hpos := hb.boardStop_le
  refine ⟨by simp only; omega, hb.boardStop_le, fun g' hg' => ?_⟩
  cases hg.symm.trans hg'
  refine ⟨by simp only; omega, hstop, ?_⟩
  rw [← Nat.sub_sub]
  exact Nat.dvd_sub hdvd (Nat.dvd_refl _)

theorem InBounds.moved {d d' : Decoder} (hb : d.InBounds) (h : d.step = .moved d') :
    d'.InBounds := by
  obtain ⟨g, hg, -, rfl⟩ | ⟨index, rest, -, -, -, hopen⟩ | ⟨hg, -, -, hopen⟩ := step_moved h
  · exact ⟨hb.pos_le, hb.boardStop_le, fun g' hg' => by cases hg'⟩
  · obtain ⟨havailable, -, hlow, hhigh, format, -, hdvd, rfl⟩ := openGroup_eq_ok_iff.1 hopen
    have hpos := hb.pos_le
    refine ⟨by simp only; omega, hb.boardStop_le, fun g' hg' => ?_⟩
    cases hg'
    refine ⟨by simp only; omega, by simp only; omega, ?_⟩
    simp only [Nat.add_sub_add_left]
    exact hdvd
  · obtain ⟨havailable, -, hlow, hhigh, rfl⟩ := openBoard_eq_ok_iff.1 hopen
    have hpos := hb.pos_le
    have hstop := hb.boardStop_le
    refine ⟨by simp only; omega, by simp only; omega, fun g' hg' => ?_⟩
    cases hg.symm.trans hg'

/-! ## A run -/

/-- Induction along the moves of the decoder, which end because every move shrinks its measure. -/
theorem inductionOn {motive : Decoder → Prop} (d : Decoder)
    (event : ∀ d e d', d.step = .event e d' → motive d' → motive d)
    (moved : ∀ d d', d.step = .moved d' → motive d' → motive d)
    (done : ∀ d, d.step = .done → motive d)
    (failed : ∀ d e, d.step = .failed e → motive d) : motive d := by
  refine collect.induct (fun d _ => motive d) ?_ ?_ ?_ ?_ d #[]
  · exact fun d _ e d' h ih => event d e d' h ih
  · exact fun d _ d' h ih => moved d d' h ih
  · exact fun d _ h => done d h
  · exact fun d _ e h => failed d e h

/-- Collecting puts what is still to come behind what there is. -/
theorem toList_collect (d : Decoder) (yielded : Array Item) :
    (d.collect yielded).toList = yielded.toList ++ (d.collect #[]).toList := by
  induction d using inductionOn generalizing yielded with
  | event d e d' h ih =>
    rw [collect, collect, h]
    simp only
    rw [ih (yielded.push _), ih (Array.push #[] _)]
    simp
  | moved d d' h ih =>
    rw [collect, collect, h]
    exact ih yielded
  | done d h =>
    rw [collect, collect, h]
    simp
  | failed d e h =>
    rw [collect, collect, h]
    simp

/-- What the decoder yields from its present place on: events, and an error if there is one. -/
def results (d : Decoder) : List (Except DecodeError RawEvent) :=
  (d.collect #[]).toList.map (·.result)

theorem results_event {d d' : Decoder} {e : RawEvent} (h : d.step = .event e d') :
    d.results = .ok e :: d'.results := by
  simp only [results]
  rw [collect, h]
  simp only
  rw [toList_collect]
  simp

theorem results_moved {d d' : Decoder} (h : d.step = .moved d') : d.results = d'.results := by
  simp only [results]
  rw [collect, h]

theorem results_done {d : Decoder} (h : d.step = .done) : d.results = [] := by
  simp only [results]
  rw [collect, h]
  rfl

theorem results_failed {d : Decoder} {e : DecodeError} (h : d.step = .failed e) :
    d.results = [.error e] := by
  simp only [results]
  rw [collect, h]
  rfl

/-- A decoder that has neither ended nor begins with an error yields what it collects. -/
theorem items_eq_collect {d : Decoder} (hf : ¬d.finished = true) (hp : d.pending = none) :
    d.items = d.collect #[] := by
  simp [items, hf, hp]

/-- The next item is the first of all items, and the decoder behind it has the others. -/
theorem toList_items_of_next {d d' : Decoder} {r : Except DecodeError RawEvent}
    (h : d.next = (some r, d')) : d.items.toList = ⟨r, d'.offset⟩ :: d'.items.toList := by
  fun_induction next d with
  | case1 d hf => cases h
  | case2 d hf e hp =>
    cases h
    simp [items, hf, hp, offset]
  | case3 d hf hp e d₁ hstep =>
    cases h
    obtain ⟨-, hp', hf'⟩ := event_keeps hstep
    rw [items_eq_collect hf hp, items_eq_collect (hf' ▸ hf) (hp'.trans hp), collect, hstep]
    simp only
    rw [toList_collect]
    rfl
  | case4 d hf hp d₁ hstep ih =>
    obtain ⟨-, hp', hf'⟩ := moved_keeps hstep
    rw [← ih h, items_eq_collect hf hp, items_eq_collect (hf' ▸ hf) (hp'.trans hp), collect, hstep]
  | case5 d hf hp hstep => cases h
  | case6 d hf hp e hstep =>
    cases h
    rw [items_eq_collect hf hp, collect, hstep]
    rfl

/-- If there is no next item, there are no items, and the decoder has ended. -/
theorem items_of_next_eq_none {d d' : Decoder} (h : d.next = (none, d')) :
    d.items = #[] ∧ d'.finished = true := by
  fun_induction next d with
  | case1 d hf =>
    cases h
    exact ⟨by simp [items, hf], hf⟩
  | case2 d hf e hp => cases h
  | case3 d hf hp e d₁ hstep => cases h
  | case4 d hf hp d₁ hstep ih =>
    obtain ⟨-, hp', hf'⟩ := moved_keeps hstep
    obtain ⟨hitems, hend⟩ := ih h
    refine ⟨?_, hend⟩
    rw [← hitems, items_eq_collect hf hp, items_eq_collect (hf' ▸ hf) (hp'.trans hp), collect,
      hstep]
  | case5 d hf hp hstep =>
    cases h
    rw [items_eq_collect hf hp, collect, hstep]
    exact ⟨rfl, rfl⟩
  | case6 d hf hp e hstep => cases h

end Decoder

/-- The events and errors of a readout of whole words are what its decoder yields. -/
theorem decode_eq_results {bytes : Bytes} (h : bytes.length % 4 = 0) :
    decode bytes = (Decoder.ofBytes bytes).results := by
  rw [decode, Decoder.items_eq_collect (by simp [Decoder.ofBytes]) (by simp [Decoder.ofBytes, h])]
  rfl

/-- A readout that is not of whole words is refused at once. -/
theorem decode_misaligned {bytes : Bytes} (h : ¬bytes.length % 4 = 0) :
    decode bytes = [.error (.misaligned bytes.length)] := by
  simp [decode, Decoder.items, Decoder.ofBytes, h]

end PulseDaq
