import Mathlib.Data.Real.Basic
import Mathlib.Tactic.Linarith
import Mathlib.Tactic.NormNum
import Mathlib.Tactic.Positivity
import Mathlib.Tactic.Ring
import Reckoner.Double

/-!
# Rounding errors

Every operation is off by `roundoff` at most, relative to its exact result. What is computed in
several operations is bounded by these errors alone.
-/

namespace Reckoner.Double

/-- The real number that a dyadic number is. -/
noncomputable def value (x : Dyadic) : ℝ := (x.toRat : ℝ)

/-- The relative error of one rounding. -/
noncomputable def roundoff : ℝ := 1 / 2 ^ 53

theorem roundoff_pos : 0 < roundoff := by rw [roundoff]; positivity

section value

variable (a b : Dyadic)

theorem value_add : value (a + b) = value a + value b := by
  rw [value,Dyadic.toRat_add,Rat.cast_add]
  rfl

theorem value_sub : value (a - b) = value a - value b := by
  rw [value,Dyadic.toRat_sub,Rat.cast_sub]
  rfl

theorem value_mul : value (a * b) = value a * value b := by
  rw [value,Dyadic.toRat_mul,Rat.cast_mul]
  rfl

theorem value_neg : value (-a) = -value a := by
  rw [value,Dyadic.toRat_neg,Rat.cast_neg]
  rfl

theorem value_intCast (n : Int) : value n = n := by
  rw [value,Dyadic.toRat_intCast,Rat.cast_intCast]

theorem value_natCast (n : Nat) : value n = n := by
  rw [value,Dyadic.toRat_natCast,Rat.cast_natCast]

theorem value_ofIntWithPrec (n k : Int) : value (.ofIntWithPrec n k) = n * 2 ^ (-k) := by
  rw [value,Dyadic.toRat_ofIntWithPrec_eq_mul_two_pow]
  push_cast
  rfl

theorem value_ofOdd (n k : Int) (odd : n % 2 = 1) : value (.ofOdd n k odd) = n * 2 ^ (-k) := by
  rw [value,Dyadic.toRat_ofOdd_eq_mul_two_pow]
  push_cast
  rfl

theorem value_lt : value a < value b ↔ a < b := by
  rw [value,value,Rat.cast_lt,Dyadic.toRat_lt_toRat_iff]

theorem value_le : value a ≤ value b ↔ a ≤ b := by
  rw [value,value,Rat.cast_le,Dyadic.toRat_le_toRat_iff]

end value

theorem bitLength_eq {n : Nat} (someBit : n ≠ 0) : bitLength n = Nat.log2 n + 1 := if_neg someBit

theorem lt_two_pow_bitLength (n : Nat) : n < 2 ^ bitLength n := by
  rw [bitLength]
  split
  next none => omega
  next someBit => exact Nat.lt_log2_self

theorem roundNat_eq_self {n : Nat} (short : bitLength n ≤ precision) : roundNat n = n := by
  obtain ⟨above,below⟩ := roundAt_near (bitLength n - precision) n
  rw [← roundNat,Nat.one_shiftLeft,Nat.sub_eq_zero_of_le short,Nat.pow_zero] at above below
  omega

theorem roundNat_near (n : Nat) :
    2 ^ 53 * roundNat n ≤ (2 ^ 53 + 1) * n ∧ (2 ^ 53 - 1) * n ≤ 2 ^ 53 * roundNat n := by
  by_cases short : bitLength n ≤ precision
  · rw [roundNat_eq_self short]
    constructor <;> omega
  · have long : precision < bitLength n := Nat.lt_of_not_le short
    have someBit : n ≠ 0 := by
      rintro rfl
      simp [bitLength] at long
    have bits := bitLength_eq someBit
    have leading : 2 ^ Nat.log2 n ≤ n := Nat.log2_self_le someBit
    have split : 2 ^ Nat.log2 n = 2 ^ 52 * 2 ^ (bitLength n - precision) := by
      rw [← Nat.pow_add]
      congr 1
      simp only [precision] at long ⊢
      omega
    obtain ⟨above,below⟩ := roundAt_near (bitLength n - precision) n
    rw [← roundNat,Nat.one_shiftLeft] at above below
    constructor <;> omega

theorem roundNat_error (n : Nat) : |(roundNat n : ℝ) - n| ≤ roundoff * n := by
  obtain ⟨above,below⟩ := roundNat_near n
  have above : (2 ^ 53 * roundNat n : ℝ) ≤ (2 ^ 53 + 1) * n := by exact_mod_cast above
  have below : ((2 ^ 53 - 1) * n : ℝ) ≤ 2 ^ 53 * roundNat n := by
    have cast : ((2 ^ 53 - 1 : Nat) : ℝ) = 2 ^ 53 - 1 := by norm_num
    rw [← cast]
    exact_mod_cast below
  rw [roundoff,abs_le]
  constructor <;> linarith

theorem round_error (x : Dyadic) : |value (round x) - value x| ≤ roundoff * |value x| := by
  cases x with
  | zero => simp [round,value]
  | ofOdd n k odd =>
    have size : (0 : ℝ) ≤ 2 ^ (-k) := zpow_nonneg zero_le_two _
    have apart : (n : ℝ) = n.sign * (n.natAbs : ℝ) := by
      have := congrArg (Int.cast (R := ℝ)) (Int.sign_mul_natAbs n)
      rwa [Int.cast_mul,Int.cast_natCast,eq_comm] at this
    have signed : |(n.sign : ℝ)| ≤ 1 := by
      rcases Int.sign_trichotomy n with sign | sign | sign <;> simp [sign]
    have near := roundNat_error n.natAbs
    rw [round,value_ofIntWithPrec,value_ofOdd,abs_mul,abs_of_nonneg size,← sub_mul,abs_mul,
      abs_of_nonneg size,← mul_assoc]
    refine mul_le_mul_of_nonneg_right ?_ size
    have magnitude : |(n : ℝ)| = n.natAbs := by
      rw [← Int.cast_abs,Int.abs_eq_natAbs]
      rfl
    push_cast
    calc |(n.sign : ℝ) * roundNat n.natAbs - n|
        = |(n.sign : ℝ)| * |(roundNat n.natAbs : ℝ) - n.natAbs| := by
          rw [← abs_mul,mul_sub,← apart]
      _ ≤ 1 * (roundoff * n.natAbs) := mul_le_mul signed near (abs_nonneg _) zero_le_one
      _ = roundoff * |(n : ℝ)| := by rw [one_mul,magnitude]

theorem round_error_le {x : Dyadic} {exactValue bound : ℝ} (is : value x = exactValue)
    (within : |exactValue| ≤ bound) : |value (round x) - exactValue| ≤ roundoff * bound := by
  subst is
  exact (round_error x).trans (mul_le_mul_of_nonneg_left within roundoff_pos.le)

section operations

variable {a b c : Dyadic} {bound : ℝ}

theorem add_error (within : |value a + value b| ≤ bound) :
    |value (add a b) - (value a + value b)| ≤ roundoff * bound :=
  round_error_le (value_add a b) within

theorem sub_error (within : |value a - value b| ≤ bound) :
    |value (sub a b) - (value a - value b)| ≤ roundoff * bound :=
  round_error_le (value_sub a b) within

theorem mul_error (within : |value a * value b| ≤ bound) :
    |value (mul a b) - value a * value b| ≤ roundoff * bound :=
  round_error_le (value_mul a b) within

theorem mulAdd_error (within : |value a * value b + value c| ≤ bound) :
    |value (mulAdd a b c) - (value a * value b + value c)| ≤ roundoff * bound :=
  round_error_le (by rw [value_add,value_mul]) within

end operations

theorem abs_mul_sub_mul_le (a b x y : ℝ) : |a * b - x * y| ≤ |a| * |b - y| + |a - x| * |y| := by
  have split : a * b - x * y = a * (b - y) + (a - x) * y := by ring
  rw [split,← abs_mul,← abs_mul]
  exact abs_add_le _ _

/-- A number is within so many errors of size `roundoff` of a real number of at most the given
size. -/
structure Near (errors : Nat) (size : ℝ) (a : Dyadic) (x : ℝ) : Prop where
  error : |value a - x| ≤ errors * roundoff
  size : |x| ≤ size

namespace Near

variable {a b c result : Dyadic} {x y z X Y Z : ℝ} {i j k : Nat}

theorem of_value (size : |value a| ≤ X) : Near 0 X a (value a) :=
  ⟨by rw [sub_self,abs_zero,Nat.cast_zero,zero_mul],size⟩

theorem weaken (near : Near i X a x) (errors : i ≤ j) (size : X ≤ Y) : Near j Y a x :=
  ⟨near.error.trans (mul_le_mul_of_nonneg_right (by exact_mod_cast errors) roundoff_pos.le),
    near.size.trans size⟩

theorem neg (near : Near i X a x) : Near i X (-a) (-x) := by
  refine ⟨?_,by rw [abs_neg]; exact near.size⟩
  rw [value_neg,neg_sub_neg,abs_sub_comm]
  exact near.error

theorem abs_value_le (near : Near i X a x) (few : i ≤ 1000) : |value a| ≤ X + 1 / 32 := by
  have few : (i : ℝ) ≤ 1000 := by exact_mod_cast few
  have small : i * roundoff ≤ 1 / 32 := by rw [roundoff]; linarith
  have split := abs_add_le (value a - x) x
  rw [sub_add_cancel] at split
  linarith [near.error,near.size]

theorem round (near : Near i X a x) (few : i ≤ 1000) (below : X ≤ 7 / 8) :
    Near (i + 1) X (Double.round a) x := by
  have within : |value a| ≤ 1 := (near.abs_value_le few).trans (by linarith)
  have rounded := round_error_le rfl within
  have split := abs_sub_le (value (Double.round a)) (value a) x
  refine ⟨?_,near.size⟩
  rw [Nat.cast_add,Nat.cast_one]
  linarith [near.error]

theorem add_exact (aNear : Near i X a x) (bNear : Near j Y b y) :
    Near (i + j) (X + Y) (a + b) (x + y) := by
  refine ⟨?_,(abs_add_le x y).trans (add_le_add aNear.size bNear.size)⟩
  rw [value_add,add_sub_add_comm,Nat.cast_add,add_mul]
  exact (abs_add_le _ _).trans (add_le_add aNear.error bNear.error)

theorem mul_exact (aNear : Near i X a x) (bNear : Near j Y b y) (few : i ≤ 1000)
    (aSmall : X ≤ 1 / 16) (bSmall : Y ≤ 2) : Near (2 * i + j) (X * Y) (a * b) (x * y) := by
  have aSize := aNear.abs_value_le few
  refine ⟨?_,?_⟩
  · rw [value_mul]
    calc |value a * value b - x * y|
        ≤ |value a| * |value b - y| + |value a - x| * |y| := abs_mul_sub_mul_le _ _ _ _
      _ ≤ 1 * (j * roundoff) + i * roundoff * 2 :=
        add_le_add (mul_le_mul (by linarith) bNear.error (abs_nonneg _) zero_le_one)
          (mul_le_mul aNear.error (bNear.size.trans bSmall) (abs_nonneg _)
            (mul_nonneg (Nat.cast_nonneg i) roundoff_pos.le))
      _ = (2 * i + j : Nat) * roundoff := by push_cast; ring
  · rw [abs_mul]
    exact mul_le_mul aNear.size bNear.size (abs_nonneg _) ((abs_nonneg _).trans aNear.size)

theorem add (aNear : Near i X a x) (bNear : Near j Y b y) (few : i + j ≤ 1000)
    (below : X + Y ≤ 7 / 8) : Near (i + j + 1) (X + Y) (Double.add a b) (x + y) :=
  (aNear.add_exact bNear).round few below

theorem sub (aNear : Near i X a x) (bNear : Near j Y b y) (few : i + j ≤ 1000)
    (below : X + Y ≤ 7 / 8) : Near (i + j + 1) (X + Y) (Double.sub a b) (x - y) := by
  have difference : a - b = a + -b := rfl
  rw [sub_eq_add_neg,Double.sub,difference]
  exact (aNear.add_exact bNear.neg).round few below

theorem mul (aNear : Near i X a x) (bNear : Near j Y b y) (few : 2 * i + j ≤ 1000)
    (aSmall : X ≤ 1 / 16) (bSmall : Y ≤ 2) :
    Near (2 * i + j + 1) (X * Y) (Double.mul a b) (x * y) := by
  refine (aNear.mul_exact bNear (by omega) aSmall bSmall).round few ?_
  nlinarith [(abs_nonneg x).trans aNear.size,(abs_nonneg y).trans bNear.size]

theorem mulAdd (aNear : Near i X a x) (bNear : Near j Y b y) (cNear : Near k Z c z)
    (few : 2 * i + j + k ≤ 1000) (aSmall : X ≤ 1 / 16) (bSmall : Y ≤ 2)
    (below : X * Y + Z ≤ 7 / 8) :
    Near (2 * i + j + k + 1) (X * Y + Z) (Double.mulAdd a b c) (x * y + z) :=
  ((aNear.mul_exact bNear (by omega) aSmall bSmall).add_exact cNear).round few below

end Near

end Reckoner.Double
