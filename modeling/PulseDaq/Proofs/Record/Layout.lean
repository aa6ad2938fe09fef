import PulseDaq.Proofs.Record.Codec
import PulseDaq.Record.Attributes

/-!
# What is stored about a record is so

Whoever reads a record with nothing but the layout that is stored with it finds the values of the
event.

* `Field.Adjoin`: fields side by side.
* `Field.read`: what stands in a field of some bytes.
* `RecordValue.adjoin_place`, `RecordValue.read_place`: values that are packed side by side can be
  read from the fields that they are given.
* `Event.values`: the values of an event under the names that they have in a layout.
* `Event.layout_eq`, `Event.encode_eq`: the layout of an event's record is that of its values, and
  the record is these values packed.
* `Event.layout_describes`: the main result.
-/

namespace PulseDaq

/-! ## Fields -/

namespace Field

/-- Where the next field starts. -/
def stop (f : Field) : Nat :=
  f.offset + f.scalar.width * f.count

/-- The fields fill the bytes from `start` to `stop`, each one from where the one before it ends. -/
def Adjoin (start stop : Nat) : List Field → Prop
  | [] => start = stop
  | f :: rest => f.offset = start ∧ Adjoin f.stop stop rest

/-- The numbers in the field. -/
def read (f : Field) (bytes : Bytes) : List Nat :=
  (List.range f.count).map fun i => bytes.numberAt (f.offset + i * f.scalar.width) f.scalar.width

end Field

/-- Numbers of one width under a name. -/
structure RecordValue where
  name : String
  scalar : Scalar
  numbers : List Nat
  deriving DecidableEq, Repr

namespace RecordValue

/-- The value as bytes. -/
def encode (v : RecordValue) : Bytes :=
  v.numbers.flatMap (Bytes.ofNat v.scalar.width)

/-- The value that stands in a field. -/
def ofField (bytes : Bytes) (f : Field) : RecordValue where
  name := f.name
  scalar := f.scalar
  numbers := f.read bytes

/-- The fields of values that are packed side by side. -/
def place (start : Nat) : List RecordValue → List Field
  | [] => []
  | v :: rest =>
    let f : Field :=
      { name := v.name, offset := start, scalar := v.scalar, count := v.numbers.length }
    f :: place f.stop rest

/-- Every number fits into its bytes. -/
def Small (v : RecordValue) : Prop :=
  ∀ n ∈ v.numbers, n < Bytes.bound v.scalar.width

theorem encode_single (name : String) (scalar : Scalar) (n : Nat) :
    encode ⟨name, scalar, [n]⟩ = Bytes.ofNat scalar.width n :=
  List.append_nil _

theorem encode_pair (name : String) (scalar : Scalar) (m n : Nat) :
    encode ⟨name, scalar, [m, n]⟩ = Bytes.ofNat scalar.width m ++ Bytes.ofNat scalar.width n :=
  congrArg _ (List.append_nil _)

theorem encode_map (name : String) (scalar : Scalar) (f : α → Nat) (l : List α) :
    encode ⟨name, scalar, l.map f⟩ = l.flatMap fun x => Bytes.ofNat scalar.width (f x) :=
  List.flatMap_map f _ l

theorem length_encode (v : RecordValue) :
    v.encode.length = v.scalar.width * v.numbers.length := by
  rw [encode]
  induction v.numbers with
  | nil => rfl
  | cons n rest ih =>
    rw [List.flatMap_cons, List.length_append, ih, Bytes.length_ofNat, List.length_cons,
      Nat.mul_succ, Nat.add_comm]

theorem adjoin_place (start : Nat) (values : List RecordValue) :
    Field.Adjoin start (start + (values.flatMap encode).length) (place start values) := by
  induction values generalizing start with
  | nil => rfl
  | cons v rest ih =>
    refine ⟨rfl, ?_⟩
    rw [List.flatMap_cons, List.length_append, ← Nat.add_assoc, length_encode]
    exact ih _

/-- Numbers of one width side by side are found at multiples of the width. -/
theorem read_numbers {width start : Nat} {numbers : List Nat} {front : Bytes}
    (hsmall : ∀ n ∈ numbers, n < Bytes.bound width) (hfront : front.length = start)
    (behind : Bytes) :
    ((List.range numbers.length).map fun i =>
      Bytes.numberAt (front ++ (numbers.flatMap (Bytes.ofNat width) ++ behind)) (start + i * width)
        width) = numbers := by
  induction numbers generalizing front start with
  | nil => rfl
  | cons n rest ih =>
    obtain ⟨hn, hrest⟩ := List.forall_mem_cons.1 hsmall
    rw [List.length_cons, List.range_succ_eq_map, List.map_cons, List.map_map, List.flatMap_cons,
      List.append_assoc]
    congr 1
    · rw [Nat.zero_mul, Nat.add_zero, Bytes.numberAt_ofNat hfront hn]
    · -- The rest stands behind the first number.
      have hnext : (front ++ Bytes.ofNat width n).length = start + width := by
        rw [List.length_append, hfront, Bytes.length_ofNat]
      refine Eq.trans (List.map_congr_left fun i _ => ?_) (ih hrest hnext)
      rw [Function.comp_apply, Nat.succ_mul, Nat.add_comm (i * width), ← Nat.add_assoc,
        List.append_assoc]

/-- Values that are packed side by side stand in the fields that they are given. -/
theorem read_place {start : Nat} {values : List RecordValue} {front : Bytes}
    (hsmall : ∀ v ∈ values, v.Small) (hfront : front.length = start) :
    (place start values).map (ofField (front ++ values.flatMap encode)) = values := by
  induction values generalizing front start with
  | nil => rfl
  | cons v rest ih =>
    obtain ⟨hv, hrest⟩ := List.forall_mem_cons.1 hsmall
    rw [place, List.map_cons, List.flatMap_cons]
    congr 1
    · exact congrArg (RecordValue.mk v.name v.scalar) (read_numbers hv hfront _)
    · rw [← List.append_assoc]
      refine ih hrest ?_
      rw [List.length_append, hfront, length_encode]
      rfl

end RecordValue

/-! ## Events -/

namespace Event

/-- What extended events and waveforms share. -/
def extendedValues (time : UInt64) (channel charge baseline : UInt16) : List RecordValue :=
  [⟨"time", .u64, [time.toNat]⟩, ⟨"channel", .u16, [channel.toNat]⟩,
    ⟨"charge", .u16, [charge.toNat]⟩, ⟨"baseline", .u16, [baseline.toNat]⟩]

/-- The values of an event, by the names that they are stored under. -/
def values : Event → List RecordValue
  | compact e => [⟨"time", .u32, [e.time.toNat]⟩, ⟨"channel", .u16, [e.channel.toNat]⟩,
      ⟨"charge", .u16, [e.charge.toNat]⟩]
  | extended e => extendedValues e.time e.channel e.charge e.baseline
  | waveform e => extendedValues e.time e.channel e.charge e.baseline ++
      [⟨"num_samples", .u16, [e.samples.length]⟩, ⟨"trigger", .u16, [e.trigger.toNat]⟩,
        ⟨"gate", .u16, [e.gate.start.toNat, e.gate.stop.toNat]⟩,
        ⟨"holdoff", .u16, [e.holdoff.start.toNat, e.holdoff.stop.toNat]⟩,
        ⟨"overthreshold", .u16, [e.overthreshold.start.toNat, e.overthreshold.stop.toNat]⟩,
        ⟨"samples", .u16, e.samples.map (·.toNat)⟩]

/-- The layout for an event of the kind and size has a field for each value. -/
theorem layout_eq (e : Event) :
    (DigitizerAttributes.of e.kind e.elementSize).layout = RecordValue.place 0 e.values := by
  show e.kind.layout (e.kind.samples e.elementSize) = _
  rw [elementSize, RecordKind.samples_elementSize]
  cases e with
  | compact e => rfl
  | extended e => rfl
  | waveform e =>
    have hcount : (e.samples.map (·.toNat)).length = e.samples.length := List.length_map _
    simp only [values, extendedValues, List.cons_append, List.nil_append, RecordValue.place,
      hcount]
    rfl

/-- A record is the values of its event, one behind the other. -/
theorem encode_eq {e : Event} (h : e.samples.length < UInt16.size) :
    e.encode = e.values.flatMap RecordValue.encode := by
  cases e with
  | compact e =>
    simp only [encode, CompactEvent.encode, values, List.flatMap_cons, List.flatMap_nil,
      RecordValue.encode_single, List.append_nil]
    rfl
  | extended e =>
    simp only [encode, ExtendedEvent.encode, values, extendedValues, List.flatMap_cons,
      List.flatMap_nil, RecordValue.encode_single, List.append_nil]
    rfl
  | waveform e =>
    have hcount : (UInt16.ofNat e.samples.length).toNat = e.samples.length :=
      UInt16.toNat_ofNat_of_lt' h
    simp only [encode, WaveformEvent.encode, WaveformEvent.encodeHeader, ExtendedEvent.encode,
      Interval.encode, values, extendedValues, Bytes.ofUInt16, hcount, List.cons_append,
      List.nil_append, List.flatMap_cons, List.flatMap_nil, RecordValue.encode_single,
      RecordValue.encode_pair, RecordValue.encode_map, List.append_assoc, List.append_nil]
    rfl

theorem values_small {e : Event} (h : e.samples.length < UInt16.size) :
    ∀ v ∈ e.values, v.Small := by
  have h16 (x : UInt16) : x.toNat < Bytes.bound Scalar.u16.width := x.toNat_lt
  have h32 (x : UInt32) : x.toNat < Bytes.bound Scalar.u32.width := x.toNat_lt
  have h64 (x : UInt64) : x.toNat < Bytes.bound Scalar.u64.width := x.toNat_lt
  have hcount : e.samples.length < Bytes.bound Scalar.u16.width := h
  cases e with
  | compact e => simp [values, RecordValue.Small, h16, h32]
  | extended e => simp [values, extendedValues, RecordValue.Small, h16, h64]
  | waveform e =>
    simp only [samples] at hcount
    simp [values, extendedValues, RecordValue.Small, h16, h64, hcount]

/-- **The declared layout.** The fields that are stored for records of an event's kind and size fill
such a record one behind the other, and what stands in them in the record of the event are its
values, each one under its own name. -/
theorem layout_describes (e : Event) (h : e.samples.length ≤ 65535) :
    let layout := (DigitizerAttributes.of e.kind e.elementSize).layout
    Field.Adjoin 0 e.elementSize layout ∧ layout.map (RecordValue.ofField e.encode) = e.values := by
  intro layout
  have hlayout : layout = RecordValue.place 0 e.values := layout_eq e
  have hencode : e.encode = e.values.flatMap RecordValue.encode := encode_eq (Nat.lt_succ_of_le h)
  rw [hlayout, ← length_encode, hencode]
  constructor
  · have hadjoin := RecordValue.adjoin_place 0 e.values
    rwa [Nat.zero_add] at hadjoin
  · have hread := RecordValue.read_place (values_small (Nat.lt_succ_of_le h)) List.length_nil
    rwa [List.nil_append] at hread

/-- The two samples of this waveform are its last four bytes, and are found by the layout. -/
theorem layout_describes_twoSamples :
    let e : Event := .waveform
      { time := 1, channel := 2, charge := 3, baseline := 4, trigger := 1, gate := ⟨0, 1⟩
        samples := [5, 600] }
    let layout := (DigitizerAttributes.of .waveform 34).layout
    e.samples.length ≤ 65535 ∧ Field.Adjoin 0 34 layout ∧
      layout.map (RecordValue.ofField e.encode) =
        [⟨"time", .u64, [1]⟩, ⟨"channel", .u16, [2]⟩, ⟨"charge", .u16, [3]⟩,
          ⟨"baseline", .u16, [4]⟩, ⟨"num_samples", .u16, [2]⟩, ⟨"trigger", .u16, [1]⟩,
          ⟨"gate", .u16, [0, 1]⟩,
          ⟨"holdoff", .u16, [65535, 65535]⟩, ⟨"overthreshold", .u16, [65535, 65535]⟩,
          ⟨"samples", .u16, [5, 600]⟩] := by
  intro e layout
  exact ⟨by decide, layout_describes e (by decide)⟩

end Event

end PulseDaq
