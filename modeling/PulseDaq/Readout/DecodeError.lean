import PulseDaq.Text.Hex
import PulseDaq.Group

/-!
# What can be wrong with a readout

Every position is a byte offset into the readout; sizes are in words.
-/

namespace PulseDaq

/-- Why a readout cannot be decoded further. -/
inductive DecodeError where
  /-- The readout is not a whole number of words. -/
  | misaligned (size : Nat)
  /-- A board aggregate does not start with its magic. -/
  | boardMagic (offset : Nat) (word : UInt32)
  /-- A board aggregate is shorter than its header or longer than what is left of the readout. -/
  | boardLength (offset words available : Nat)
  /-- A board aggregate ends before the group that its mask announces. -/
  | missingGroup (offset : Nat) (group : Group)
  /-- The first word of a group aggregate lacks its mark. -/
  | groupHeader (offset : Nat) (word : UInt32)
  /-- A group aggregate is shorter than its header or longer than what is left of its board. -/
  | groupLength (offset words available : Nat)
  /-- The marker bits of a format word are wrong. -/
  | format (offset : Nat) (word : UInt32)
  /-- The events of a group do not fill it. -/
  | stride (offset words stride : Nat)
  /-- Words are left in a board aggregate behind its last group. -/
  | trailing (offset stop : Nat)
  deriving DecidableEq, Repr

/-- The wording of a decode error. -/
def DecodeError.message : DecodeError → String
  | .misaligned size => s!"buffer of {size} bytes is not a whole number of words"
  | .boardMagic offset word =>
    s!"bad board aggregate magic in word {Text.hexWord word} at byte {offset}"
  | .boardLength offset words available =>
    s!"board aggregate at byte {offset} claims {words} words, {available} available"
  | .missingGroup offset group =>
    s!"group {group.val} expected at byte {offset} but its board aggregate has ended"
  | .groupHeader offset word => s!"bad group aggregate header {Text.hexWord word} at byte {offset}"
  | .groupLength offset words available =>
    s!"group aggregate at byte {offset} claims {words} words, {available} available"
  | .format offset word => s!"bad group format word {Text.hexWord word} at byte {offset}"
  | .stride offset words size =>
    s!"group aggregate at byte {offset} holds {words} event words, " ++
      s!"not a multiple of the {size} word stride"
  | .trailing offset stop =>
    s!"board aggregate ends at byte {stop} but its groups end at byte {offset}"

end PulseDaq
