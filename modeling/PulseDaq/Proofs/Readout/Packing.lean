import PulseDaq.Readout.Aggregate

/-!
# Events through their words

An event packed in a format and read back from its words.

* `unpack_packHalves`: the samples read from packed words are the ones that were packed, cut to the
  room or padded with zeros.
* `getD_words_last`, `getD_words_extras`: where the two words at the end of an event stand.
* `ReadBack`: what reading an event back gives; `readBack_raw` says that this holds of every event
  in every format.
-/

namespace PulseDaq

/-! ## Samples -/

namespace Sample

/-- A sample as it is kept: its value is cut to twelve bits, its markers stay. -/
def cut (s : Sample) : Sample :=
  { s with value := s.value &&& 0xFFF }

theorem ofHalf_toHalf_eq_cut (s : Sample) : ofHalf s.toHalf = s.cut := by
  have hvalue : UInt16.ofNat (s.value.toNat % Nat.pow 2 valueBits) = s.value &&& 0xFFF := by
    apply UInt16.toNat_inj.1
    have hlt := s.value.toNat_lt
    have hand : s.value.toNat &&& 0xFFF = s.value.toNat % 4096 :=
      Nat.and_two_pow_sub_one_eq_mod s.value.toNat 12
    rw [UInt16.toNat_and, UInt16.toNat_ofNat', valueBits, Nat.pow_eq]
    rw [Nat.mod_eq_of_lt (Nat.lt_of_le_of_lt (Nat.mod_le _ _) hlt)]
    exact hand.symm
  rw [ofHalf_toHalf, cut, hvalue]

theorem ofHalf_zero : ofHalf 0 = {} := by
  decide

theorem toNat_joinHalves (low high : UInt16) :
    (joinHalves low high).toNat = low.toNat + 65536 * high.toNat := by
  have hlow := low.toNat_lt
  have hhigh := high.toNat_lt
  rw [joinHalves, UInt32.toNat_ofNat', UInt16.size, Nat.mod_eq_of_lt (by omega)]

theorem field_joinHalves_low (low high : UInt16) :
    Word.field (joinHalves low high) 0 16 = low.toNat := by
  have hlow := low.toNat_lt
  simp only [Word.field, toNat_joinHalves, Nat.pow_eq, Nat.reducePow]
  omega

theorem field_joinHalves_high (low high : UInt16) :
    Word.field (joinHalves low high) 16 16 = high.toNat := by
  have hlow := low.toNat_lt
  have hhigh := high.toNat_lt
  simp only [Word.field, toNat_joinHalves, Nat.pow_eq, Nat.reducePow]
  omega

theorem ofWord_joinHalves (low high : UInt16) :
    ofWord (joinHalves low high) = [ofHalf low, ofHalf high] := by
  simp [ofWord, field_joinHalves_low, field_joinHalves_high]

/-- Packed half words read back in order, as many as there is room for, zeros behind them. -/
theorem unpack_packHalves (words : Nat) (halves : List UInt16) :
    unpack (packHalves words halves) =
      (List.rightpad (2 * words) 0 (halves.take (2 * words))).map ofHalf := by
  have hcons (w : UInt32) (ws : List UInt32) : unpack (w :: ws) = ofWord w ++ unpack ws := rfl
  fun_induction packHalves words halves with
  | case1 halves => simp [unpack, List.rightpad]
  | case2 words low high rest ih =>
    rw [hcons, ofWord_joinHalves, ih, Nat.mul_succ]
    simp [List.rightpad]
  | case3 words low ih =>
    rw [hcons, ofWord_joinHalves, ih, Nat.mul_succ]
    simp [List.rightpad, List.replicate_succ]
  | case4 words ih =>
    have hzero : ofWord 0 = [ofHalf 0, ofHalf 0] := by decide
    rw [hcons, hzero, ih, Nat.mul_succ]
    simp [List.rightpad, List.replicate_succ]

/-- Packed samples read back cut to the room that there is, or padded with zeros. -/
theorem unpack_pack (samples : List Sample) (words : Nat) :
    unpack (pack samples words) =
      List.rightpad (2 * words) {} ((samples.map cut).take (2 * words)) := by
  rw [pack, unpack_packHalves]
  simp [List.rightpad, ← List.map_take, ofHalf_zero, ofHalf_toHalf_eq_cut]

end Sample

/-! ## Events -/

namespace SyntheticEvent

variable (e : SyntheticEvent) (format : GroupFormat)

/-- The time is the first word of an event, and its samples follow. -/
theorem words_eq :
    e.words format = e.time :: (Sample.pack e.samples format.sampleWords ++
      ((if format.extras then [e.extrasWord] else []) ++ [e.lastWord])) := rfl

theorem getD_words_last : (e.words format).getD (format.stride - 1) 0 = e.lastWord := by
  have hlen := e.length_words format
  rw [← hlen, List.getD_eq_getElem?_getD, ← List.getLast?_eq_getElem?, words_eq,
    ← List.append_assoc, ← List.cons_append, List.getLast?_concat]
  rfl

theorem getD_words_extras (h : format.extras = true) :
    (e.words format).getD (format.stride - 2) 0 = e.extrasWord := by
  have hstride :
      format.stride - 2 = (e.time :: Sample.pack e.samples format.sampleWords).length := by
    simp [GroupFormat.stride, GroupFormat.extraWords, h]
    omega
  have hwords : e.words format =
      (e.time :: Sample.pack e.samples format.sampleWords) ++ [e.extrasWord, e.lastWord] := by
    simp [words_eq, h]
  rw [hwords, hstride, List.getD_eq_getElem?_getD, List.getElem?_append_right (Nat.le_refl _)]
  simp

theorem toNat_lastWord :
    e.lastWord.toNat = 0x10000000 * (e.channel.toNat % 16) + e.charge.toNat := by
  have hcharge := e.charge.toNat_lt
  rw [lastWord, UInt32.toNat_ofNat', Nat.pow_eq, Nat.mod_eq_of_lt (by omega)]

/-- The event as the decoder finds it in a group of this format. -/
def raw (g : Group) : RawEvent where
  group := g
  format := format
  words := e.words format

end SyntheticEvent

namespace SyntheticEvent

variable (e : SyntheticEvent) (f : GroupFormat) (g : Group)

theorem extrasWord_raw : (e.raw f g).extrasWord = if f.extras then e.extrasWord else 0 := by
  have hformat : (e.raw f g).format = f := rfl
  rw [RawEvent.extrasWord, hformat]
  by_cases h : f.extras = true
  · rw [if_pos h, if_pos h]
    exact getD_words_extras e f h
  · rw [if_neg h, if_neg h]

theorem lastWord_raw : (e.raw f g).lastWord = e.lastWord :=
  getD_words_last e f

theorem time_raw : (e.raw f g).time.toNat =
    if f.extras then e.extension.toNat <<< 32 ||| e.time.toNat else e.time.toNat := by
  have htime := e.time.toNat_lt
  have hext := e.extension.toNat_lt
  have htag : (e.raw f g).timeTag = e.time := rfl
  rw [RawEvent.time, extrasWord_raw, htag, UInt64.toNat_ofNat', UInt32.size]
  split
  · have hjoin := Nat.two_pow_add_eq_or_of_lt htime e.extension.toNat
    rw [extrasWord, Sample.field_joinHalves_low, Nat.mod_eq_of_lt (by omega), Nat.shiftLeft_eq,
      Nat.mul_comm e.extension.toNat]
    exact hjoin
  · have hzero : Word.field 0 0 16 = 0 := by decide
    rw [hzero, Nat.mul_zero, Nat.zero_add, Nat.mod_eq_of_lt (by omega)]

theorem baseline_raw : (e.raw f g).baseline = if f.extras then e.baseline else 0 := by
  rw [RawEvent.baseline, extrasWord_raw]
  split
  · rw [extrasWord, Sample.field_joinHalves_high, UInt16.ofNat_toNat]
  · decide

theorem channel_raw : (e.raw f g).channel.toNat = 8 * g.val ||| (e.channel.toNat &&& 0xF) := by
  have hg := g.isLt
  have hcharge := e.charge.toNat_lt
  have hfield : Word.field e.lastWord 28 4 = e.channel.toNat % 16 := by
    simp only [Word.field, toNat_lastWord, Nat.pow_eq, Nat.reducePow]
    omega
  have hand : e.channel.toNat &&& 0xF = e.channel.toNat % 16 :=
    Nat.and_two_pow_sub_one_eq_mod e.channel.toNat 4
  have hor : 8 * g.val ||| e.channel.toNat % 16 < 65536 :=
    Nat.or_lt_two_pow (n := 16) (by omega) (by omega)
  rw [RawEvent.channel, lastWord_raw, hfield, hand, UInt16.toNat_ofNat']
  exact Nat.mod_eq_of_lt hor

theorem charge_raw : (e.raw f g).charge = e.charge := by
  have hcharge := e.charge.toNat_lt
  have hfield : Word.field e.lastWord 0 16 = e.charge.toNat := by
    simp only [Word.field, toNat_lastWord, Nat.pow_eq, Nat.reducePow]
    omega
  rw [RawEvent.charge, lastWord_raw, hfield, UInt16.ofNat_toNat]

theorem samples_raw : (e.raw f g).samples =
    List.rightpad f.samples {} ((e.samples.map Sample.cut).take f.samples) := by
  have htake : ((e.words f).drop 1).take f.sampleWords = Sample.pack e.samples f.sampleWords := by
    rw [words_eq, List.drop_one, List.tail_cons, List.take_left' (Sample.length_pack _ _)]
  rw [RawEvent.samples, raw, htake, Sample.unpack_pack]
  rfl

end SyntheticEvent

/-- An event that was packed, with its group and format. -/
structure PackedEvent where
  group : Group
  format : GroupFormat
  event : SyntheticEvent

/-- The event as the decoder finds it. -/
def PackedEvent.raw (p : PackedEvent) : RawEvent :=
  p.event.raw p.format p.group

/-- What reading a packed event back gives. -/
structure ReadBack (p : PackedEvent) (r : RawEvent) : Prop where
  group : r.group = p.group
  format : r.format = p.format
  timeTag : r.timeTag = p.event.time
  /-- The high bits of the time are there if the format has extras. -/
  time : r.time.toNat =
    if p.format.extras then p.event.extension.toNat <<< 32 ||| p.event.time.toNat
    else p.event.time.toNat
  baseline : r.baseline = if p.format.extras then p.event.baseline else 0
  channel : r.channel.toNat = 8 * p.group.val ||| (p.event.channel.toNat &&& 0xF)
  charge : r.charge = p.event.charge
  length_samples : r.samples.length = p.format.samples
  /-- Samples are cut to what the format has room for, or padded with zeros. -/
  samples : r.samples =
    List.rightpad p.format.samples {} ((p.event.samples.map Sample.cut).take p.format.samples)

/-- Every event reads back from its words. -/
theorem readBack_raw (p : PackedEvent) : ReadBack p p.raw where
  group := rfl
  format := rfl
  timeTag := rfl
  time := p.event.time_raw p.format p.group
  baseline := p.event.baseline_raw p.format p.group
  channel := p.event.channel_raw p.format p.group
  charge := p.event.charge_raw p.format p.group
  length_samples := by
    rw [PackedEvent.raw, p.event.samples_raw, List.rightpad]
    simp only [List.length_append, List.length_take, List.length_map, List.length_replicate]
    omega
  samples := p.event.samples_raw p.format p.group

end PulseDaq
