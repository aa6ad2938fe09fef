import PulseDaq.Board.Simulated
import PulseDaq.Proofs.Readout.Faults

/-!
# Readouts that a simulated board breaks

A corrupted aggregate has a word more than its events take. The board and its first group both claim
it, so all sizes agree; but the events of a group take two words or more each, so that the group is
left with a piece of an event. Without any group only half of the board's header is left.

* `corrupted_words`: the words of a corrupted aggregate.
* `decode_corrupted`: such a readout is decoded into one error, and nothing else.
-/

namespace PulseDaq

namespace SimulatedBoard

/-! ## The words -/

theorem grown_ofNat (w : UInt32) : grown (.ofNat 4 w.toNat) = .ofNat 4 (w + 1).toNat := by
  have hw := w.toNat_lt
  have hbound : Bytes.bound 4 = 2 ^ 32 := rfl
  have hcut := Bytes.ofNat_toNat (.ofNat 4 (w.toNat + 1))
  rw [Bytes.length_ofNat, Bytes.toNat_ofNat, hbound] at hcut
  rw [grown, Bytes.toNat_ofNat, hbound, Nat.mod_eq_of_lt hw, ← hcut, UInt32.toNat_add]
  rfl

theorem corrupted_append {a b c rest : Bytes} (ha : a.length = 4) (hb : b.length = 4)
    (hc : c.length = 4) : corrupted (a ++ (b ++ (c ++ rest))) =
      grown a ++ (b ++ (grown c ++ (rest ++ List.replicate 4 0))) := by
  have hdrop : (a ++ (b ++ (c ++ rest))).drop 4 = b ++ (c ++ rest) := List.drop_left' ha
  have hdrop' : (a ++ (b ++ (c ++ rest))).drop 8 = c ++ rest := by
    rw [← List.drop_drop (i := 4) (j := 4), hdrop, List.drop_left' hb]
  have hdrop'' : (a ++ (b ++ (c ++ rest))).drop 12 = rest := by
    rw [← List.drop_drop (i := 4) (j := 8), hdrop', List.drop_left' hc]
  rw [corrupted, if_pos, List.take_left' ha, hdrop, hdrop', hdrop'', List.take_left' hb,
    List.take_left' hc]
  · simp only [List.append_assoc]
  · simp only [List.length_append]
    omega

/-- A word is added behind the last one, and the headers of the board and of its first group count
it. -/
theorem corrupted_words {b : BoardFrame} {f : GroupFrame} {fs : List GroupFrame}
    (hb : b.groups = f :: fs) :
    corrupted (Bytes.ofWords b.words) = Bytes.ofWords ((b.header + 1) :: b.maskWord ::
      (f.header + 1) :: f.formatWord :: (f.body ++ (groupsWords fs ++ [0]))) := by
  have hzero : List.replicate 4 0 = Bytes.ofWords [0] := rfl
  rw [BoardFrame.words, hb, groupsWords_cons, GroupFrame.words]
  simp only [List.cons_append, Bytes.ofWords_cons]
  rw [corrupted_append (Bytes.length_ofNat _ _) (Bytes.length_ofNat _ _) (Bytes.length_ofNat _ _),
    grown_ofNat, grown_ofNat, hzero, List.append_assoc, ← Bytes.ofWords_append,
    List.append_assoc]

/-- Without any group only the first word is left. -/
theorem corrupted_words_of_nil {b : BoardFrame} (hb : b.groups = []) :
    corrupted (Bytes.ofWords b.words) = Bytes.ofWords [b.header] := by
  rw [BoardFrame.words, hb]
  rfl

/-! ## The fault -/

/-- A group that claims a word more than its events take has a piece of an event at its end. -/
theorem groupFault_of_extra (offset : Nat) (f : GroupFrame) {behind : List UInt32}
    (hroom : f.body.length + 3 < 0x80000000) (hbehind : behind ≠ []) :
    GroupFault offset ((f.header + 1) :: f.formatWord :: (f.body ++ behind))
      (.stride offset (f.body.length + 1) (statedStride f.formatWord)) := by
  have hmarked := f.header_marked
  have hsize := f.header_size
  have hlt := f.header.toNat_lt
  have hpos := List.length_pos_iff.2 hbehind
  simp only [Word.bit, Word.field, Nat.pow_eq, Nat.reducePow, beq_iff_eq] at hmarked hsize
  have hsucc : (f.header + 1).toNat = f.header.toNat + 1 := by
    rw [UInt32.toNat_add, UInt32.toNat_one, Nat.mod_eq_of_lt (by omega)]
  have hfield : Word.field (f.header + 1) 0 31 = 2 + (f.body.length + 1) := by
    simp only [Word.field, hsucc, Nat.pow_eq, Nat.reducePow]
    omega
  have hragged : ¬statedStride f.formatWord ∣ f.body.length + 1 := by
    intro hdvd
    have hone := Nat.dvd_one.1 ((Nat.dvd_add_right f.stride_dvd).1 hdvd)
    unfold statedStride at hone
    omega
  have hfault := @GroupFault.stride offset (f.header + 1) f.formatWord (f.body ++ behind)
  rw [hfield, Nat.add_sub_cancel_left, List.length_append] at hfault
  refine hfault ?_ (by omega) (by omega) f.format_marked hragged
  simp only [Word.bit, Word.field, hsucc, Nat.pow_eq, Nat.reducePow, beq_iff_eq]
  omega

/-- The board claims the word too, so it is the first group that is at fault. -/
theorem boardFault_of_extra {b : BoardFrame} {f : GroupFrame} {fs : List GroupFrame}
    (hb : b.groups = f :: fs) (hroom : b.words.length + 1 < 0x10000000) :
    BoardFault 0 ((b.header + 1) :: b.maskWord ::
        (f.header + 1) :: f.formatWord :: (f.body ++ (groupsWords fs ++ [0]))) []
      (.stride 8 (f.body.length + 1) (statedStride f.formatWord)) := by
  have hmagic := b.header_magic
  have hsize := b.header_size
  have hlt := b.header.toNat_lt
  have hmasked := b.groups_masked
  have hlength : (groupsWords b.groups).length = 2 + f.body.length + (groupsWords fs).length := by
    rw [hb, groupsWords_cons, List.length_append, f.length_words]
  rw [b.length_words] at hroom
  simp only [Word.field, Nat.pow_eq, Nat.reducePow] at hmagic hsize
  have hsucc : (b.header + 1).toNat = b.header.toNat + 1 := by
    rw [UInt32.toNat_add, UInt32.toNat_one, Nat.mod_eq_of_lt (by omega)]
  have hfault := @BoardFault.inside 0 (b.header + 1) b.maskWord [] (f.index :: fs.map (·.index))
    ((f.header + 1) :: f.formatWord :: (f.body ++ (groupsWords fs ++ [0]))) []
    (.stride 8 (f.body.length + 1) (statedStride f.formatWord))
  rw [List.append_nil] at hfault
  refine hfault ?_ ?_ ?_ (.group (groupFault_of_extra 8 f (by omega) (by simp)))
  · simp only [Word.field, hsucc, Nat.pow_eq, Nat.reducePow]
    omega
  · have hnil : (groupsWords []).length = 0 := rfl
    simp only [Word.field, hsucc, Nat.pow_eq, Nat.reducePow, List.length_cons, List.length_append,
      List.length_nil, hnil]
    omega
  · rw [hb] at hmasked
    exact hmasked

/-- **A corrupted readout.** It is decoded into one error, in front of all events. -/
theorem decode_corrupted (b : BoardFrame) (hroom : b.words.length + 1 < 0x10000000) :
    ∃ e, decode (corrupted (Bytes.ofWords b.words)) = [.error e] := by
  have hdecode {ws : List UInt32} {e : DecodeError} (hfault : BoardFault 0 ws [] e) :
      decode (Bytes.ofWords ws) = [.error e] := by
    have haligned : (Bytes.ofWords ws).length % 4 = 0 := by
      rw [Bytes.length_ofWords, Nat.mul_mod_right]
    have hfirst : FirstFault (Bytes.toWords (Bytes.ofWords ws)).toList [] e := by
      rw [Bytes.toWords_ofWords]
      exact .behind [] hfault
    exact decode_of_firstFault haligned hfirst
  cases hb : b.groups with
  | nil =>
    rw [corrupted_words_of_nil hb]
    exact ⟨_, hdecode (.short b.header)⟩
  | cons f fs =>
    rw [corrupted_words hb]
    exact ⟨_, hdecode (boardFault_of_extra hb hroom)⟩

end SimulatedBoard

end PulseDaq
