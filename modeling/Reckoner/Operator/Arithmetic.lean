import Reckoner.PowerSize
import Reckoner.Operator

/-!
# Arithmetic

What the operators compute. Sums, differences and products are exact; quotients are
truncated toward zero; powers are exact after three checks, in this order: the exponent is
not negative, it is not too large, and the result is not estimated as too large.
-/

namespace Reckoner

/-- The largest exponent of a power, `2 ^ 31 - 1`. -/
def maxExponent : Int := 0x7FFFFFFF

def divide (left right : Int) : Except Failure Int :=
  if right = 0 then .error .divisionByZero else .ok (left.tdiv right)

def power (resultBits base exponent : Int) : Except Failure Int :=
  if exponent < 0 then .error .negativeExponent
  else if maxExponent < exponent then .error .exponentTooLarge
  else if 1 < base.natAbs && !PowerSize.fits resultBits base.natAbs exponent.toNat then
    .error .resultTooLarge
  else .ok (base.pow exponent.toNat)

namespace Operator

def apply (resultBits : Int) : Operator → Int → Int → Except Failure Int
  | add, left, right => .ok (left + right)
  | sub, left, right => .ok (left - right)
  | mul, left, right => .ok (left * right)
  | div, left, right => divide left right
  | pow, left, right => power resultBits left right

end Operator

/-- Applies the operator that a text names. -/
def applyText (resultBits : Int) (text : Text) (left right : Int) : Except Failure Int :=
  match Operator.ofText? text with
  | some op => op.apply resultBits left right
  | none => .error .unknownOperator

end Reckoner
