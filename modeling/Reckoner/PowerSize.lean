import Reckoner.Double.Log2

/-!
# The size of a power, estimated

A power is refused by an estimate of its size in bits that is made before it is computed: the
exponent times the binary logarithm of the base, in double precision throughout.
-/

namespace Reckoner.PowerSize

open Double

/-- A base of no more bits is rounded as a whole before its logarithm is taken. -/
def wholeBits : Nat := 1024

/-- The logarithm of a base. A base too large to be rounded as a whole is split into a power
of two and a fraction below one, whose logarithms are added. -/
def bitsOf (base : Nat) : Dyadic :=
  let rounded := roundNat base
  let bits := bitLength rounded
  let significand := rounded <<< precision >>> bits
  if bits ≤ wholeBits then log2 (.ofIntWithPrec significand (precision - bits))
  else add bits (log2 (.ofIntWithPrec significand precision))

/-- The estimate that `base ^ exponent` has fewer than `limit` bits. -/
def fits (limit : Int) (base exponent : Nat) : Bool := mul exponent (bitsOf base) < limit

end Reckoner.PowerSize
