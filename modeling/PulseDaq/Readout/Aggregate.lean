import PulseDaq.Readout.Decoder

/-!
# Building board aggregates

The counterpart of decoding: events given by their values, packed as a board would.

* `SyntheticEvent.words`: one event as the words of a format.
* `BoardAggregate.words`/`BoardAggregate.toBytes`: a whole board aggregate, its groups in ascending
  order whatever order they were added in.
-/

namespace PulseDaq

/-- The values of one event before packing. -/
structure SyntheticEvent where
  time : UInt32 := 0
  /-- High-order bits of the time, packed if the format has extras. -/
  extension : UInt16 := 0
  /-- Packed if the format has extras. -/
  baseline : UInt16 := 0
  /-- Channel within the group; its low four bits are packed. -/
  channel : UInt8 := 0
  charge : UInt16 := 0
  /-- Packed if the format has samples; padded or cut to fit. -/
  samples : List Sample := []
  deriving DecidableEq, Repr

namespace SyntheticEvent

/-- The extras word: baseline above extension. -/
def extrasWord (e : SyntheticEvent) : UInt32 :=
  Sample.joinHalves e.extension e.baseline

/-- The last word: the channel in its four high bits, the charge in its low half. -/
def lastWord (e : SyntheticEvent) : UInt32 :=
  UInt32.ofNat (Nat.pow 2 28 * (e.channel.toNat % 16) + e.charge.toNat)

/-- The event packed in exactly `format.stride` words. -/
def words (e : SyntheticEvent) (format : GroupFormat) : List UInt32 :=
  e.time :: Sample.pack e.samples format.sampleWords
    ++ ((if format.extras then [e.extrasWord] else []) ++ [e.lastWord])

@[simp] theorem length_words (e : SyntheticEvent) (format : GroupFormat) :
    (e.words format).length = format.stride := by
  cases h : format.extras <;> simp [words, GroupFormat.stride, GroupFormat.extraWords, h] <;> omega

end SyntheticEvent

/-- One group of a board aggregate. -/
structure GroupAggregate where
  index : Group
  format : GroupFormat
  events : List SyntheticEvent
  deriving DecidableEq, Repr

namespace GroupAggregate

/-- The words of the events, in order. -/
def eventWords (g : GroupAggregate) : List UInt32 :=
  g.events.flatMap (·.words g.format)

/-- The words that the group takes, its header included. -/
def size (g : GroupAggregate) : Nat :=
  Decoder.headerWords + g.events.length * g.format.stride

/-- The group packed: its size under the mark of bit 31, its format, its events. -/
def words (g : GroupAggregate) : List UInt32 :=
  (0x80000000 ||| UInt32.ofNat g.size) :: g.format.toWord :: g.eventWords

@[simp] theorem length_eventWords (g : GroupAggregate) :
    g.eventWords.length = g.events.length * g.format.stride := by
  obtain ⟨index, format, events⟩ := g
  simp only [eventWords]
  induction events with
  | nil => simp
  | cons e events ih =>
    rw [List.flatMap_cons, List.length_append, ih, SyntheticEvent.length_words, List.length_cons,
      Nat.succ_mul, Nat.add_comm]

@[simp] theorem length_words (g : GroupAggregate) : g.words.length = g.size := by
  simp [words, size, Decoder.headerWords]
  omega

end GroupAggregate

/-- A board aggregate under construction. -/
structure BoardAggregate where
  /-- In ascending order of their indices. -/
  groups : List GroupAggregate := []
  deriving DecidableEq, Repr

namespace BoardAggregate

/-- The board aggregate without groups. -/
def empty : BoardAggregate := {}

/-- Put a group behind every group whose index is not larger. -/
def insertGroup (g : GroupAggregate) : List GroupAggregate → List GroupAggregate
  | [] => [g]
  | h :: rest => if h.index ≤ g.index then h :: insertGroup g rest else g :: h :: rest

/-- Add a group. It replaces the group of that index. An index above seven stands for the group of
its three low bits, and then replaces nothing. -/
def add (a : BoardAggregate) (index : UInt8) (format : GroupFormat)
    (events : List SyntheticEvent) : BoardAggregate where
  groups := insertGroup ⟨Fin.ofNat 8 index.toNat, format, events⟩
    (a.groups.filter fun g => g.index.val ≠ index.toNat)

/-- The mask of the groups. -/
def mask (a : BoardAggregate) : Nat :=
  GroupMask.ofGroups (a.groups.map (·.index))

/-- Events in all groups together. -/
def eventCount (a : BoardAggregate) : Nat :=
  a.groups.foldr (fun g n => g.events.length + n) 0

/-- The words of the groups, in ascending order. -/
def groupWords (a : BoardAggregate) : List UInt32 :=
  a.groups.flatMap (·.words)

/-- The words that the aggregate takes, its header included. -/
def size (a : BoardAggregate) : Nat :=
  Decoder.headerWords + a.groupWords.length

/-- The aggregate packed: its size under the magic, its mask, its groups. -/
def words (a : BoardAggregate) : List UInt32 :=
  (0xA0000000 ||| UInt32.ofNat a.size) :: UInt32.ofNat a.mask :: a.groupWords

/-- The aggregate packed as bytes. -/
def toBytes (a : BoardAggregate) : Bytes :=
  Bytes.ofWords a.words

end BoardAggregate

end PulseDaq
