import PulseDaq.Proofs.Readout.RoundTrip

/-!
# Building what was decoded

A board aggregate that is built of the values of decoded events has the words that they were decoded
from, if there were no bits in these that no value tells.

* `Sample.pack_unpack`: samples are packed into the words that they were read from.
* `RawEvent.synthetic`: the values of a decoded event. Its words are those of the event if the last
  one is `Canonical` (`RawEvent.words_synthetic`).
* `GroupFrame.words_aggregate`: the same of a group aggregate.
* `regroup`: the decoded events, put back into groups; `lastCall?_regroup` says which group gets
  which of them, in whatever order the groups are added.
* `toBytes_regroup`: a board aggregate is built again, bit for bit.
-/

namespace PulseDaq

/-- A bit that is read off a number has its weight in it. -/
theorem Word.weight_testBit (n i : Nat) :
    Word.weight (n.testBit i) i = Nat.pow 2 i * (n / Nat.pow 2 i % 2) := by
  rw [Nat.testBit_eq_decide_div_mod_eq, Word.weight, Nat.pow_eq]
  rcases Nat.mod_two_eq_zero_or_one (n / 2 ^ i) with h | h <;> simp [h]

theorem Word.weight_bit (w : UInt32) (i : Nat) :
    Word.weight (Word.bit w i) i = Nat.pow 2 i * Word.field w i 1 := by
  rw [Word.bit_eq_testBit]
  exact Word.weight_testBit w.toNat i

/-! ## Samples -/

namespace Sample

/-- A half word is its value and the four bits above it. -/
theorem toHalf_ofHalf (half : UInt16) : (ofHalf half).toHalf = half := by
  have hhalf := half.toNat_lt
  apply UInt16.toNat_inj.1
  rw [toNat_toHalf]
  simp only [ofHalf, Word.weight_testBit, valueBits, UInt16.toNat_ofNat', Nat.pow_eq, Nat.reducePow]
  omega

/-- A word is its two halves. -/
theorem joinHalves_field (w : UInt32) :
    joinHalves (UInt16.ofNat (Word.field w 0 16)) (UInt16.ofNat (Word.field w 16 16)) = w := by
  have hw := w.toNat_lt
  apply UInt32.toNat_inj.1
  rw [toNat_joinHalves]
  simp only [UInt16.toNat_ofNat', Word.field, Nat.pow_eq, Nat.reducePow]
  omega

/-- Samples are packed into the words that they were read from. -/
theorem pack_unpack (words : List UInt32) : pack (unpack words) words.length = words := by
  induction words with
  | nil => rfl
  | cons w words ih =>
    have hhalves : (unpack (w :: words)).map toHalf = UInt16.ofNat (Word.field w 0 16) ::
        UInt16.ofNat (Word.field w 16 16) :: (unpack words).map toHalf := by
      simp [unpack, ofWord, toHalf_ofHalf]
    rw [pack, hhalves, List.length_cons, packHalves, joinHalves_field]
    exact congrArg _ ih

end Sample

/-! ## Events -/

/-- The bits of a last word that neither the channel nor the charge tells are clear: the highest
one, which the channel cannot have beside the number of its group, and those between the two. -/
def Word.LastCanonical (w : UInt32) : Prop :=
  Word.bit w 31 = false ∧ Word.field w 16 12 = 0

instance (w : UInt32) : Decidable (Word.LastCanonical w) :=
  inferInstanceAs (Decidable (_ ∧ _))

namespace RawEvent

variable {e : RawEvent}

/-- The values of a decoded event, with the channel numbered within its group. -/
def synthetic (e : RawEvent) : SyntheticEvent where
  time := e.timeTag
  extension := (e.time >>> 32).toUInt16
  baseline := e.baseline
  channel := (e.channel - UInt16.ofNat (channelsPerGroup * e.group.val)).toUInt8
  charge := e.charge
  samples := e.samples

/-- The parts of an event that has the words of its format. -/
theorem exists_parts (h : e.words.length = e.format.stride) :
    ∃ samples, samples.length = e.format.sampleWords ∧ e.samples = Sample.unpack samples ∧
      e.words = e.timeTag :: (samples ++
        ((if e.format.extras then [e.extrasWord] else []) ++ [e.lastWord])) := by
  obtain ⟨group, format, words⟩ := e
  simp only [GroupFormat.stride, GroupFormat.extraWords] at h
  obtain ⟨t, tail, rfl⟩ : ∃ t tail, words = t :: tail :=
    List.exists_cons_of_length_pos (by omega)
  obtain ⟨samples, behind, rfl, hsamples⟩ : ∃ samples behind, tail = samples ++ behind ∧
      samples.length = format.sampleWords :=
    ⟨_, _, (List.take_append_drop format.sampleWords tail).symm, by
      simp only [List.length_cons] at h
      rw [List.length_take]
      omega⟩
  have htake : RawEvent.samples ⟨group, format, t :: (samples ++ behind)⟩ =
      Sample.unpack samples := by
    rw [RawEvent.samples, List.drop_one, List.tail_cons, ← hsamples, List.take_left']
    rfl
  have hplace (i : Nat) :
      (t :: (samples ++ behind)).getD (1 + format.sampleWords + i) 0 = behind.getD i 0 := by
    rw [← hsamples, Nat.add_assoc, Nat.add_comm 1, List.getD_cons_succ, List.getD_eq_getElem?_getD,
      List.getElem?_append_right (Nat.le_add_right _ _), Nat.add_sub_cancel_left,
      ← List.getD_eq_getElem?_getD]
  refine ⟨samples, hsamples, htake, ?_⟩
  simp only [List.length_cons, List.length_append, hsamples] at h
  simp only [timeTag, extrasWord, lastWord, word, GroupFormat.stride, GroupFormat.extraWords]
  cases hextras : format.extras with
  | false =>
    rw [hextras, if_neg Bool.false_ne_true] at h
    obtain ⟨l, rfl⟩ := List.length_eq_one_iff.1 (show behind.length = 1 by omega)
    have hlast : 2 + 0 + format.sampleWords - 1 = 1 + format.sampleWords + 0 := by omega
    simp only [Bool.false_eq_true, if_false, hlast, hplace]
    rfl
  | true =>
    rw [hextras, if_pos rfl] at h
    obtain ⟨x, l, rfl⟩ := List.length_eq_two.1 (show behind.length = 2 by omega)
    have hextra : 2 + 1 + format.sampleWords - 2 = 1 + format.sampleWords + 0 := by omega
    have hlast : 2 + 1 + format.sampleWords - 1 = 1 + format.sampleWords + 1 := by omega
    simp only [if_true, hextra, hlast, hplace]
    rfl

/-- The extras of a decoded event are those of its values. -/
theorem extrasWord_synthetic : e.synthetic.extrasWord = e.extrasWord := by
  have hlow := Word.field_lt e.extrasWord 0 16
  have htag := e.timeTag.toNat_lt
  simp only [Nat.pow_eq, Nat.reducePow] at hlow
  have hextension : (e.time >>> 32).toUInt16 = UInt16.ofNat (Word.field e.extrasWord 0 16) := by
    apply UInt16.toNat_inj.1
    simp only [time, UInt64.toNat_toUInt16, UInt64.toNat_shiftRight, UInt64.toNat_ofNat',
      UInt16.toNat_ofNat', UInt32.size, UInt64.reduceToNat, Nat.reduceMod,
      Nat.shiftRight_eq_div_pow, Nat.reducePow]
    omega
  rw [SyntheticEvent.extrasWord, synthetic, hextension, baseline, Sample.joinHalves_field]

/-- The last word of a decoded event is that of its values, if they tell all of it. -/
theorem lastWord_synthetic (h : Word.LastCanonical e.lastWord) :
    e.synthetic.lastWord = e.lastWord := by
  obtain ⟨hhighest, hbetween⟩ := h
  have hlast := e.lastWord.toNat_lt
  have hgroup := e.group.isLt
  have hchannel : Word.field e.lastWord 28 4 < 8 := by
    simp only [Word.bit, Word.field, Nat.pow_eq, Nat.reducePow, beq_eq_false_iff_ne] at hhighest ⊢
    omega
  have hjoined : e.channel.toNat = 8 * e.group.val + Word.field e.lastWord 28 4 := by
    have hor := Nat.two_pow_add_eq_or_of_lt (i := 3) hchannel e.group.val
    rw [channel, channelsPerGroup, UInt16.toNat_ofNat', ← hor]
    omega
  have hnumber : e.synthetic.channel.toNat = Word.field e.lastWord 28 4 := by
    simp only [synthetic, channelsPerGroup, UInt16.toNat_toUInt8, UInt16.toNat_sub,
      UInt16.toNat_ofNat', hjoined]
    omega
  have hcharge : e.synthetic.charge.toNat = Word.field e.lastWord 0 16 := by
    have hlt := Word.field_lt e.lastWord 0 16
    exact (UInt16.toNat_ofNat' ).trans (Nat.mod_eq_of_lt hlt)
  apply UInt32.toNat_inj.1
  rw [SyntheticEvent.toNat_lastWord, hnumber, hcharge]
  simp only [Word.field, Nat.pow_eq, Nat.reducePow] at hbetween ⊢
  omega

/-- The words of a decoded event are those of its values. -/
theorem words_synthetic (h : e.words.length = e.format.stride)
    (hlast : Word.LastCanonical e.lastWord) : e.synthetic.words e.format = e.words := by
  obtain ⟨samples, hlength, hsamples, hwords⟩ := exists_parts h
  have hpack : Sample.pack e.synthetic.samples e.format.sampleWords = samples := by
    rw [synthetic, hsamples, ← hlength, Sample.pack_unpack]
  rw [hwords, SyntheticEvent.words_eq, hpack, lastWord_synthetic hlast]
  rw [extrasWord_synthetic]
  rfl

end RawEvent

/-! ## Groups -/

/-- A format word without bits that no format tells is the word of its format. -/
theorem toWord_stated {w : UInt32}
    (hmarked : Word.bit w 31 = false ∧ Word.bit w 30 = true ∧ Word.bit w 29 = true)
    (h : Word.field w 12 15 = 0) : (GroupFormat.stated w).toWord = w := by
  obtain ⟨h31, h30, h29⟩ := hmarked
  have hw := w.toNat_lt
  apply UInt32.toNat_inj.1
  have hweight30 := Word.weight_bit w 30
  have hweight29 := Word.weight_bit w 29
  rw [h30] at hweight30
  rw [h29] at hweight29
  simp only [GroupFormat.toWord, GroupFormat.stated, hweight30, hweight29, Word.weight_bit,
    UInt32.toNat_ofNat', UInt16.toNat_ofNat']
  simp only [Word.bit, Word.field, GroupFormat.sampleFieldBits, Nat.pow_eq, Nat.reducePow,
    beq_eq_false_iff_ne] at h h31 ⊢
  omega

/-- Windows that leave nothing out are all the words. -/
theorem flatten_windows {n : Nat} (hn : 0 < n) {ws : List UInt32} (h : n ∣ ws.length) :
    (windows n ws).flatten = ws ∧ ∀ w ∈ windows n ws, w.length = n := by
  obtain ⟨k, hk⟩ := h
  induction k generalizing ws with
  | zero =>
    obtain rfl := List.length_eq_zero_iff.1 hk
    simp
  | succ k ih =>
    rw [Nat.mul_succ] at hk
    have hfirst : (ws.take n).length = n := by
      rw [List.length_take]
      omega
    have hbehind : (ws.drop n).length = n * k := by
      rw [List.length_drop]
      omega
    obtain ⟨hrest, hlengths⟩ := ih hbehind
    have hcut := windows_append hn hfirst (ws.drop n)
    rw [List.take_append_drop] at hcut
    rw [hcut, List.flatten_cons, hrest, List.take_append_drop]
    exact ⟨rfl, List.forall_mem_cons.2 ⟨hfirst, hlengths⟩⟩

namespace GroupFrame

/-- A group aggregate has events, and every bit of it that is not a size or a mark is told by its
format or by one of its events. -/
structure Canonical (f : GroupFrame) : Prop where
  occupied : f.events ≠ []
  formatWord : Word.field f.formatWord 12 15 = 0
  lastWords : ∀ e ∈ f.events, Word.LastCanonical e.lastWord

/-- The group of the values of its events. -/
def aggregate (f : GroupFrame) : GroupAggregate where
  index := f.index
  format := .stated f.formatWord
  events := f.events.map (·.synthetic)

variable {f : GroupFrame}

theorem length_of_mem_events {e : RawEvent} (h : e ∈ f.events) :
    e.format = .stated f.formatWord ∧ e.group = f.index ∧ e.words.length = e.format.stride := by
  obtain ⟨w, hw, rfl⟩ := List.mem_map.1 h
  have hpos : 0 < statedStride f.formatWord := by
    rw [← stride_stated]
    exact Nat.lt_of_lt_of_le Nat.zero_lt_two (GroupFormat.two_le_stride _)
  refine ⟨rfl, rfl, ?_⟩
  rw [event, stride_stated]
  exact (flatten_windows hpos f.stride_dvd).2 w hw

/-- The events of a group are packed into its words. -/
theorem eventWords_aggregate (h : f.Canonical) : f.aggregate.eventWords = f.body := by
  have hpos : 0 < statedStride f.formatWord := by
    rw [← stride_stated]
    exact Nat.lt_of_lt_of_le Nat.zero_lt_two (GroupFormat.two_le_stride _)
  have hwords (e : RawEvent) (he : e ∈ f.events) :
      e.synthetic.words (.stated f.formatWord) = e.words := by
    obtain ⟨hformat, -, hlength⟩ := length_of_mem_events he
    rw [← hformat]
    exact RawEvent.words_synthetic hlength (h.lastWords e he)
  calc f.aggregate.eventWords
      = f.events.flatMap fun e => e.synthetic.words (.stated f.formatWord) := by
        rw [GroupAggregate.eventWords, aggregate, List.flatMap_map]
    _ = f.events.flatMap (·.words) := List.flatMap_congr hwords
    _ = (windows (statedStride f.formatWord) f.body).flatten := by
        rw [events, List.flatMap_map]
        exact List.flatMap_id
    _ = f.body := (flatten_windows hpos f.stride_dvd).1

/-- A group is packed into the words that it was read from. -/
theorem words_aggregate (h : f.Canonical) : f.aggregate.words = f.words := by
  have hevents := eventWords_aggregate h
  have hsize : f.aggregate.size = 2 + f.body.length := by
    rw [← hevents, GroupAggregate.length_eventWords]
    rfl
  have hheader : 0x80000000 ||| UInt32.ofNat f.aggregate.size = f.header := by
    have hlt := f.header.toNat_lt
    have hmarked := f.header_marked
    have hstated := f.header_size
    apply UInt32.toNat_inj.1
    rw [toNat_groupHeader (by rw [hsize, ← hstated]; exact Word.field_lt _ _ _), hsize, ← hstated]
    simp only [Word.bit, Word.field, Nat.pow_eq, Nat.reducePow, beq_iff_eq] at hmarked ⊢
    omega
  rw [GroupAggregate.words, hheader, hevents, aggregate, toWord_stated f.format_marked h.formatWord,
    words]

end GroupFrame

/-! ## The groups that occur -/

/-- The call that adds the events of one group, if there are any. -/
def groupCall? (raws : List RawEvent) (g : Group) : Option GroupCall :=
  let events := raws.filter (·.group = g)
  events.head?.map fun e => ⟨UInt8.ofNat g.val, e.format, events.map (·.synthetic)⟩

/-- For every group that occurs among decoded events, the call that adds them. -/
def regroup (raws : List RawEvent) : List GroupCall :=
  (List.finRange 8).filterMap (groupCall? raws)

theorem index_groupCall? {raws : List RawEvent} {g : Group} {c : GroupCall}
    (h : groupCall? raws g = some c) : c.index.toNat = g.val := by
  obtain ⟨e, -, rfl⟩ := Option.map_eq_some_iff.1 h
  have hg := g.isLt
  simp only [UInt8.toNat_ofNat']
  omega

/-- There is one call for a group, or none. -/
theorem filter_regroup (raws : List RawEvent) (g : Group) :
    (regroup raws).filter (fun c => c.index.toNat = g.val) = (groupCall? raws g).toList := by
  have hothers {l : List Group} (hl : g ∉ l) :
      (l.filterMap (groupCall? raws)).filter (fun c => c.index.toNat = g.val) = [] := by
    refine List.filter_eq_nil_iff.2 fun c hc => ?_
    obtain ⟨g', hg', hcall⟩ := List.mem_filterMap.1 hc
    have hne : g' ≠ g := fun h => hl (h ▸ hg')
    rw [index_groupCall? hcall]
    simpa using fun h => hne (Fin.ext h)
  obtain ⟨before, behind, hsplit⟩ := List.append_of_mem (List.mem_finRange g)
  have hnodup := List.nodup_finRange 8
  rw [hsplit, List.nodup_append, List.nodup_cons] at hnodup
  obtain ⟨-, ⟨hbehind, -⟩, hbefore⟩ := hnodup
  have hbefore' : g ∉ before := fun hg => hbefore g hg g List.mem_cons_self rfl
  rw [regroup, hsplit, List.filterMap_append, List.filter_append, hothers hbefore', List.nil_append]
  cases hcall : groupCall? raws g with
  | none => rw [List.filterMap_cons_none hcall, hothers hbehind, Option.toList_none]
  | some c =>
    rw [List.filterMap_cons_some hcall, List.filter_cons_of_pos, hothers hbehind,
      Option.toList_some]
    exact decide_eq_true (index_groupCall? hcall)

/-- In whatever order the calls are made, those are the groups. -/
theorem lastCall?_regroup {raws : List RawEvent} {calls : List GroupCall}
    (h : calls.Perm (regroup raws)) (g : Group) : lastCall? calls g = groupCall? raws g := by
  have hfilter := h.filter fun c => c.index.toNat = g.val
  rw [filter_regroup] at hfilter
  unfold lastCall?
  cases hcall : groupCall? raws g with
  | none =>
    rw [hcall] at hfilter
    rw [List.Perm.eq_nil hfilter]
    rfl
  | some c =>
    rw [hcall] at hfilter
    rw [List.perm_singleton.1 hfilter]
    rfl

/-! ## Boards -/

/-- The first frame of a group. -/
def frameOf? (fs : List GroupFrame) (g : Group) : Option GroupFrame :=
  fs.find? (·.index = g)

theorem frameOf?_cons_self (f : GroupFrame) (fs : List GroupFrame) :
    frameOf? (f :: fs) f.index = some f :=
  List.find?_cons_of_pos (decide_eq_true rfl)

theorem frameOf?_cons_of_ne {f : GroupFrame} {g : Group} (h : f.index ≠ g) (fs : List GroupFrame) :
    frameOf? (f :: fs) g = frameOf? fs g :=
  List.find?_cons_of_neg (by simpa using h)

theorem frameOf?_eq_none {fs : List GroupFrame} {g : Group} (h : g ∉ fs.map (·.index)) :
    frameOf? fs g = none := by
  refine List.find?_eq_none.2 fun f hf hg => h ?_
  exact List.mem_map.2 ⟨f, hf, of_decide_eq_true hg⟩

/-- The events of one group among those of frames of different groups. -/
theorem filter_events {fs : List GroupFrame} (hfs : (fs.map (·.index)).Nodup) (g : Group) :
    (fs.flatMap (·.events)).filter (·.group = g) =
      match frameOf? fs g with
      | some f => f.events
      | none => [] := by
  induction fs with
  | nil => rfl
  | cons f fs ih =>
    rw [List.map_cons, List.nodup_cons] at hfs
    have hindex (e : RawEvent) (he : e ∈ f.events) : e.group = f.index :=
      (GroupFrame.length_of_mem_events he).2.1
    rw [List.flatMap_cons, List.filter_append, ih hfs.2]
    by_cases h : f.index = g
    · subst h
      have hmine : f.events.filter (·.group = f.index) = f.events :=
        List.filter_eq_self.2 fun e he => decide_eq_true (hindex e he)
      rw [hmine, frameOf?_eq_none hfs.1, frameOf?_cons_self, List.append_nil]
    · have hnot : f.events.filter (·.group = g) = [] :=
        List.filter_eq_nil_iff.2 fun e he => by simpa [hindex e he] using h
      rw [hnot, frameOf?_cons_of_ne h, List.nil_append]

/-- Frames in the order of their groups are those that are found under the groups. -/
theorem filterMap_frameOf? {fs : List GroupFrame} {l : List Group} {p : Group → Bool}
    (hl : l.Nodup) (hfs : fs.map (·.index) = l.filter p) : l.filterMap (frameOf? fs) = fs := by
  induction l generalizing fs with
  | nil =>
    rw [List.filter_nil, List.map_eq_nil_iff] at hfs
    rw [hfs, List.filterMap_nil]
  | cons g l ih =>
    rw [List.nodup_cons] at hl
    cases hp : p g with
    | false =>
      rw [List.filter_cons_of_neg (by simp [hp])] at hfs
      have hnone : frameOf? fs g = none := by
        refine frameOf?_eq_none fun hmem => hl.1 ?_
        rw [hfs] at hmem
        exact (List.mem_filter.1 hmem).1
      rw [List.filterMap_cons_none hnone, ih hl.2 hfs]
    | true =>
      rw [List.filter_cons_of_pos hp] at hfs
      obtain ⟨f, fs, rfl, rfl, hrest⟩ := List.map_eq_cons_iff.1 hfs
      have hbehind : l.filterMap (frameOf? (f :: fs)) = l.filterMap (frameOf? fs) :=
        List.filterMap_congr fun g hg => frameOf?_cons_of_ne (fun h => hl.1 (h ▸ hg)) fs
      rw [List.filterMap_cons_some (frameOf?_cons_self f fs), hbehind, ih hl.2 hrest]

/-- A board aggregate that holds events in each of its groups, and of which no bit but the sizes
and marks goes untold. -/
structure BoardFrame.Canonical (b : BoardFrame) : Prop where
  maskWord : Word.field b.maskWord 8 24 = 0
  groups : ∀ f ∈ b.groups, f.Canonical

theorem BoardFrame.nodup_groups (b : BoardFrame) : (b.groups.map (·.index)).Nodup := by
  rw [b.groups_masked]
  exact (List.nodup_finRange 8).filter _

/-- The call for a group adds the frame of this group. -/
theorem map_aggregate_groupCall? {b : BoardFrame} (hb : b.Canonical) (g : Group) :
    (groupCall? b.events g).map GroupCall.aggregate =
      (frameOf? b.groups g).map (·.aggregate) := by
  have hevents : b.events.filter (·.group = g) = _ := filter_events b.nodup_groups g
  unfold groupCall?
  cases hframe : frameOf? b.groups g with
  | none =>
    rw [hframe] at hevents
    rw [hevents]
    rfl
  | some f =>
    rw [hframe] at hevents
    have hindex : f.index = g := of_decide_eq_true (List.find?_some hframe :)
    obtain ⟨e, rest, hsplit⟩ :=
      List.exists_cons_of_ne_nil (hb.groups f (List.mem_of_find?_eq_some hframe)).occupied
    have hformat : e.format = .stated f.formatWord :=
      (GroupFrame.length_of_mem_events (hsplit ▸ List.mem_cons_self)).1
    have hhead : f.events.head? = some e := by rw [hsplit, List.head?_cons]
    have hcall : (GroupCall.mk (UInt8.ofNat g.val) e.format
        (f.events.map (·.synthetic))).aggregate = f.aggregate := by
      have hsame : (⟨(UInt8.ofNat g.val).toNat % 8, Nat.mod_lt _ (by decide)⟩ : Group) = g := by
        have hg := g.isLt
        apply Fin.ext
        simp only [UInt8.toNat_ofNat']
        omega
      simp only [GroupCall.aggregate, GroupFrame.aggregate, hformat, hindex, hsame]
    simp only [hevents, hhead, Option.map_some, hcall]

/-- The groups that the calls leave are those of the frame. -/
theorem groups_regroup {b : BoardFrame} (hb : b.Canonical) {calls : List GroupCall}
    (hcalls : calls.Perm (regroup b.events)) :
    (BoardAggregate.ofCalls calls).groups = b.groups.map (·.aggregate) := by
  have hproper (c : GroupCall) (hc : c ∈ calls) : c.index.toNat < 8 := by
    obtain ⟨g, -, hg⟩ := List.mem_filterMap.1 (hcalls.mem_iff.1 hc)
    rw [index_groupCall? hg]
    exact g.isLt
  calc (BoardAggregate.ofCalls calls).groups
      = BoardAggregate.lastGroups calls := BoardAggregate.groups_ofCalls hproper
    _ = (List.finRange 8).filterMap fun g => (frameOf? b.groups g).map (·.aggregate) := by
        refine List.filterMap_congr fun g _ => ?_
        rw [lastCall?_regroup hcalls, map_aggregate_groupCall? hb]
    _ = b.groups.map (·.aggregate) := by
        rw [← List.map_filterMap, filterMap_frameOf? (List.nodup_finRange 8) b.groups_masked]

/-- The mask of the groups of a board is in its second word. -/
theorem mask_groups {b : BoardFrame} (h : Word.field b.maskWord 8 24 = 0) :
    UInt32.ofNat (GroupMask.ofGroups (b.groups.map (·.index))) = b.maskWord := by
  have hlt : b.maskWord.toNat < 2 ^ 8 := by
    have hword := b.maskWord.toNat_lt
    simp only [Word.field, Nat.pow_eq, Nat.reducePow] at h
    omega
  have hmask : GroupMask.ofGroups (b.groups.map (·.index)) = b.maskWord.toNat := by
    apply Nat.eq_of_testBit_eq
    intro i
    rw [testBit_ofGroups, b.groups_masked, Bool.eq_iff_iff, List.any_eq_true]
    constructor
    · rintro ⟨g, hg, hi⟩
      rw [← Word.bit_eq_testBit, ← of_decide_eq_true hi]
      exact (List.mem_filter.1 hg).2
    · intro hi
      have hsmall : i < 8 := by
        by_contra hlarge
        rw [Nat.testBit_lt_two_pow (Nat.lt_of_lt_of_le hlt (Nat.pow_le_pow_right (by decide)
          (Nat.le_of_not_lt hlarge)))] at hi
        cases hi
      refine ⟨⟨i, hsmall⟩, List.mem_filter.2 ⟨List.mem_finRange _, ?_⟩, decide_eq_true rfl⟩
      rwa [Word.bit_eq_testBit]
  rw [hmask, UInt32.ofNat_toNat]

theorem words_regroup {b : BoardFrame} (hb : b.Canonical) {calls : List GroupCall}
    (hcalls : calls.Perm (regroup b.events)) :
    (BoardAggregate.ofCalls calls).words = b.words := by
  have hgroups := groups_regroup hb hcalls
  generalize BoardAggregate.ofCalls calls = a at hgroups
  have hwords : a.groupWords = groupsWords b.groups := by
    rw [BoardAggregate.groupWords, hgroups, List.flatMap_map, groupsWords]
    exact List.flatMap_congr fun f hf => f.words_aggregate (hb.groups f hf)
  have hheader : 0xA0000000 ||| UInt32.ofNat a.size = b.header := by
    have hlt := b.header.toNat_lt
    have hmagic := b.header_magic
    have hstated : a.size = Word.field b.header 0 28 := by
      rw [BoardAggregate.size, hwords, b.header_size]
      rfl
    apply UInt32.toNat_inj.1
    rw [hstated, toNat_boardHeader (Word.field_lt _ _ _)]
    simp only [Word.field, Nat.pow_eq, Nat.reducePow] at hmagic ⊢
    omega
  have hmask : UInt32.ofNat a.mask = b.maskWord := by
    rw [BoardAggregate.mask, hgroups, List.map_map]
    exact mask_groups hb.maskWord
  rw [BoardAggregate.words, hheader, hmask, hwords, BoardFrame.words]

/-! ## Main result -/

/-- **Building undoes decoding.** Let a readout be decoded without an error, and be a single board
aggregate that is canonical: every group of its mask holds an event, and the bits that neither the
headers nor the accessors tell are clear. Then the board aggregate that is built of the values of
these events, adding the groups that occur in any order, is this readout, bit for bit. -/
theorem toBytes_regroup {bytes : Bytes} {raws : List RawEvent} {b : BoardFrame}
    {calls : List GroupCall} (hdecode : decode bytes = raws.map .ok)
    (hboard : (Bytes.toWords bytes).toList = b.words) (hcanonical : b.Canonical)
    (hcalls : calls.Perm (regroup raws)) :
    (BoardAggregate.ofCalls calls).toBytes = bytes := by
  have hok (e : DecodeError) : .error e ∉ decode bytes := by
    rw [hdecode]
    simp
  have haligned := aligned_of_decode hok
  have hboards : boardsWords [b] = b.words := List.append_nil _
  have hraws : raws = b.events := by
    have hevents : boardsEvents [b] = b.events := List.append_nil _
    have hdecoded := decode_of_boards haligned (hboard.trans hboards.symm)
    rw [hdecode, hevents] at hdecoded
    exact (List.map_inj_right fun _ _ h => Except.ok.inj h).1 hdecoded
  rw [BoardAggregate.toBytes, words_regroup hcanonical (hraws ▸ hcalls), ← hboard,
    Bytes.ofWords_toWords bytes haligned]

/-- A board with an event with extras and samples in group 1, and two events without either in
group 3, the format of which has a sample field all the same. -/
def twoGroups : BoardFrame where
  header := 0xA0000011
  maskWord := 0x0000000A
  groups := [
    { index := ⟨1, by decide⟩
      header := 0x80000009
      formatWord := 0x78000001
      body := [5, 0xF1238456, 0, 0xFFFFFFFF, 0x0FFF7000, 0x00640001, 0x30000007]
      header_marked := by decide
      header_size := by decide
      format_marked := by decide
      stride_dvd := by decide },
    { index := ⟨3, by decide⟩
      header := 0x80000006
      formatWord := 0x60000005
      body := [9, 1, 10, 0x7000FFFF]
      header_marked := by decide
      header_size := by decide
      format_marked := by decide
      stride_dvd := by decide }]
  header_magic := by decide
  header_size := by decide
  groups_masked := by decide

theorem toBytes_twoGroups :
    let bytes := Bytes.ofWords twoGroups.words
    decode bytes = twoGroups.events.map .ok ∧ (Bytes.toWords bytes).toList = twoGroups.words ∧
      twoGroups.Canonical ∧ (regroup twoGroups.events).length = 2 ∧
      (BoardAggregate.ofCalls (regroup twoGroups.events).reverse).toBytes = bytes := by
  intro bytes
  have hboard : (Bytes.toWords bytes).toList = twoGroups.words := by
    rw [Bytes.toWords_ofWords]
  have hdecode : decode bytes = twoGroups.events.map .ok := by
    have hboards : boardsWords [twoGroups] = twoGroups.words := List.append_nil _
    have hevents : boardsEvents [twoGroups] = twoGroups.events := List.append_nil _
    rw [← hevents]
    refine decode_of_boards ?_ (hboard.trans hboards.symm)
    rw [Bytes.length_ofWords, Nat.mul_mod_right]
  have hcanonical : twoGroups.Canonical := by
    refine ⟨by decide, List.forall_mem_cons.2 ⟨?_, List.forall_mem_singleton.2 ?_⟩⟩
    · exact ⟨by decide, by decide, by decide⟩
    · exact ⟨by decide, by decide, by decide⟩
  exact ⟨hdecode, hboard, hcanonical, by decide,
    toBytes_regroup hdecode hboard hcanonical (List.reverse_perm _)⟩

end PulseDaq
