/-!
# Channel groups

The channels of a board are read out in up to eight groups of eight channels. A group mask has one
bit for each group that takes part.

* `GroupMask.groups`: the groups of a mask, in ascending order.
* `GroupMask.ofGroups`: the mask of a list of groups, however often and in whatever order it
  names them.
-/

namespace PulseDaq

/-- A channel group of a board. -/
abbrev Group := Fin 8

/-- Channels that share one group. -/
def channelsPerGroup : Nat := 8

namespace GroupMask

/-- The groups whose bits are set in the low byte of `mask`, in ascending order. -/
def groups (mask : Nat) : List Group :=
  (List.finRange 8).filter fun g => mask.testBit g.val

/-- The mask with the bit of every group in `groups` set. -/
def ofGroups (groups : List Group) : Nat :=
  groups.foldl (fun mask g => mask ||| 1 <<< g.val) 0

theorem mem_groups {mask : Nat} {g : Group} : g ∈ groups mask ↔ mask.testBit g.val = true := by
  simp [groups]

/-- Only the low byte of a mask counts. -/
theorem groups_mod (mask : Nat) : groups (mask % 256) = groups mask := by
  unfold groups
  congr 1
  funext g
  have h := Nat.testBit_mod_two_pow mask 8 g.val
  simpa [g.isLt] using h

end GroupMask

end PulseDaq
