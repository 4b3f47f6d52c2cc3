/-!
# Double precision

Dyadic numbers rounded to 53 significant bits, a tie going to the even neighbour. Each
operation rounds its exact result once. Exponents are not bounded, since nothing here comes
near either end of their range.
-/

namespace Reckoner.Double

/-- Significant bits of a rounded number. -/
def precision : Nat := 53

def bitLength (n : Nat) : Nat := if n = 0 then 0 else Nat.log2 n + 1

/-- The multiple of `2 ^ drop` nearest to `n`; of two, the one with the even multiplier. -/
def roundAt (drop n : Nat) : Nat :=
  let unit := 1 <<< drop
  let quotient := n / unit
  let excess := 2 * (n % unit)
  let up := unit < excess || (unit = excess && quotient % 2 = 1)
  (if up then quotient + 1 else quotient) * unit

theorem roundAt_near (drop n : Nat) :
    2 * roundAt drop n ≤ 2 * n + 1 <<< drop ∧ 2 * n ≤ 2 * roundAt drop n + 1 <<< drop := by
  have positive : 0 < 1 <<< drop := by
    rw [Nat.one_shiftLeft]
    exact Nat.two_pow_pos drop
  unfold roundAt
  dsimp only
  generalize 1 <<< drop = unit at *
  have split := Nat.div_add_mod n unit
  have small := Nat.mod_lt n positive
  have carry : (n / unit + 1) * unit = unit * (n / unit) + unit := by
    rw [Nat.succ_mul,Nat.mul_comm]
  split
  next up =>
    have half : unit ≤ 2 * (n % unit) := by
      rcases Bool.or_eq_true _ _ ▸ up with above | tie
      · exact Nat.le_of_lt (of_decide_eq_true above)
      · exact Nat.le_of_eq (of_decide_eq_true (Bool.and_eq_true _ _ ▸ tie).1)
    rw [carry]; omega
  next down =>
    have half : 2 * (n % unit) ≤ unit := by
      simp only [Bool.or_eq_true, decide_eq_true_eq, not_or, Nat.not_lt] at down
      exact down.1
    rw [Nat.mul_comm (n / unit)]; omega

def roundNat (n : Nat) : Nat := roundAt (bitLength n - precision) n

def round : Dyadic → Dyadic
  | .zero => .zero
  | .ofOdd n k _ => .ofIntWithPrec (n.sign * roundNat n.natAbs) k

def add (a b : Dyadic) : Dyadic := round (a + b)

def sub (a b : Dyadic) : Dyadic := round (a - b)

def mul (a b : Dyadic) : Dyadic := round (a * b)

/-- A product and a sum with one rounding. -/
def mulAdd (a b c : Dyadic) : Dyadic := round (a * b + c)

end Reckoner.Double
