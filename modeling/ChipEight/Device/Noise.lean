/-!
# Noise

Random bytes as a function of a seed and of how many were drawn before. Each byte is a number of its own,
the seed plus a multiple of an odd constant, with its bits mixed by shifts and multiplications.
-/

namespace ChipEight.Noise

/-- Spreads a change of any bit over all bits. -/
def mix (z : UInt64) : UInt64 :=
  let z := (z ^^^ (z >>> 30)) * 0xBF58476D1CE4E5B9
  let z := (z ^^^ (z >>> 27)) * 0x94D049BB133111EB
  z ^^^ (z >>> 31)

/-- The byte that comes after `drawn` others. -/
def byte (seed : UInt64) (drawn : Nat) : Nat :=
  (mix (seed + (UInt64.ofNat drawn + 1) * 0x9E3779B97F4A7C15)).toNat % 256

end ChipEight.Noise
