/-!
# Noise

Numbers without a pattern, for boards that make up their data. The same seed gives the same
numbers.
-/

namespace PulseDaq

/-- Spread the bits of a number over all of its bits. -/
def scramble (x : UInt64) : UInt64 :=
  let y := (x ^^^ (x >>> 30)) * 0xBF58476D1CE4E5B9
  let z := (y ^^^ (y >>> 27)) * 0x94D049BB133111EB
  z ^^^ (z >>> 31)

/-- Number `n` of those that a seed gives. -/
def noise (seed : UInt64) (n : Nat) : Nat :=
  (scramble (seed + 0x9E3779B97F4A7C15 * UInt64.ofNat (n + 1))).toNat

end PulseDaq
