import Mathlib.Analysis.Complex.ExponentialBounds
import Mathlib.Analysis.SpecialFunctions.Log.Base
import Mathlib.Analysis.SpecialFunctions.Log.Deriv
import Reckoner.Double.Log2
import Reckoner.Proofs.Double.Rounding

/-!
# The constants of the logarithm

The table's points and the reciprocal of the logarithm of two are compared with rational sums of
the odd series, of which twenty terms are enough for arguments up to a third.
-/

namespace Reckoner.Double

theorem value_scaled (numerator : Int) (places : Nat) :
    value (scaled numerator places) = numerator / 2 ^ places := by
  rw [value_ofIntWithPrec,zpow_neg,zpow_natCast,div_eq_mul_inv]

/-- The first terms of the series whose double is the logarithm of `(1 + x) / (1 - x)`. -/
def oddSeries (x : ℚ) : Nat → ℚ
  | 0 => 0
  | terms + 1 => oddSeries x terms + x ^ (2 * terms + 1) / (2 * terms + 1 : Nat)

theorem cast_oddSeries (x : ℚ) (terms : Nat) :
    (oddSeries x terms : ℝ) =
      ∑ i ∈ Finset.range terms, (x : ℝ) ^ (2 * i + 1) / (2 * i + 1) := by
  induction terms with
  | zero => simp [oddSeries]
  | succ terms ih =>
    rw [oddSeries,Finset.sum_range_succ,← ih]
    push_cast
    rfl

/-- Half of the logarithm of `(1 + x) / (1 - x)`. -/
def halfLog (x : ℚ) : ℚ := oddSeries x 20

theorem halfLog_near {x : ℚ} (positive : 0 ≤ x) (small : x ≤ 1 / 3) :
    |1 / 2 * Real.log ((1 + x) / (1 - x)) - halfLog x| ≤ 1 / 2 ^ 64 := by
  have positive : (0 : ℝ) ≤ x := by exact_mod_cast positive
  have small : (x : ℝ) ≤ 1 / 3 := by
    have := (Rat.cast_le (K := ℝ)).2 small
    push_cast at this
    exact this
  have size : |(x : ℝ)| = x := abs_of_nonneg positive
  have near := Real.sum_range_sub_log_div_le (by rw [size]; linarith) 20
  rw [halfLog,cast_oddSeries]
  refine near.trans ?_
  have power : |(x : ℝ)| ^ (2 * 20 + 1) ≤ (1 / 3) ^ 41 := by
    rw [size]
    exact pow_le_pow_left₀ positive small 41
  have square : (x : ℝ) ^ 2 ≤ 1 / 9 := by nlinarith
  calc |(x : ℝ)| ^ (2 * 20 + 1) / (1 - (x : ℝ) ^ 2)
      ≤ (1 / 3) ^ 41 / (8 / 9) := by gcongr; linarith
    _ ≤ 1 / 2 ^ 64 := by norm_num

theorem log_sub_log_le {a b : ℝ} (aHalf : 1 / 2 ≤ a) (bHalf : 1 / 2 ≤ b) :
    |Real.log a - Real.log b| ≤ 2 * |a - b| := by
  have oneSided : ∀ {a b : ℝ}, 1 / 2 ≤ a → 1 / 2 ≤ b → Real.log a - Real.log b ≤ 2 * |a - b| := by
    intro a b aHalf bHalf
    have aPos : 0 < a := by linarith
    have bPos : 0 < b := by linarith
    calc Real.log a - Real.log b
        = Real.log (a / b) := (Real.log_div aPos.ne' bPos.ne').symm
      _ ≤ a / b - 1 := Real.log_le_sub_one_of_pos (div_pos aPos bPos)
      _ = (a - b) / b := by rw [sub_div,div_self bPos.ne']
      _ ≤ 2 * |a - b| := by
        rw [div_le_iff₀ bPos]
        nlinarith [le_abs_self (a - b),abs_nonneg (a - b)]
  have backward := oneSided bHalf aHalf
  rw [abs_sub_comm b a] at backward
  exact abs_le.2 ⟨by linarith,oneSided aHalf bHalf⟩

theorem log_two_large : 2 / 3 ≤ Real.log 2 := by linarith [Real.log_two_gt_d9]

theorem log_two_pos : 0 < Real.log 2 := Real.log_pos one_lt_two

theorem logb_sub_logb_le {a b : ℝ} (aHalf : 1 / 2 ≤ a) (bHalf : 1 / 2 ≤ b) :
    |Real.logb 2 a - Real.logb 2 b| ≤ 3 * |a - b| := by
  rw [Real.logb,Real.logb,← sub_div,abs_div,abs_of_pos log_two_pos,div_le_iff₀ log_two_pos]
  nlinarith [log_sub_log_le aHalf bHalf,abs_nonneg (a - b),log_two_large]

theorem log_two_near : |1 / 2 * Real.log 2 - halfLog (1 / 3)| ≤ 1 / 2 ^ 64 := by
  have near := halfLog_near (by norm_num) (le_refl (1 / 3 : ℚ))
  have argument : (1 + ((1 / 3 : ℚ) : ℝ)) / (1 - ((1 / 3 : ℚ) : ℝ)) = 2 := by norm_num
  rwa [argument] at near

namespace LogPoint

noncomputable def scale (point : LogPoint) : ℝ := value (scaled point.reciprocal 53)

noncomputable def log (point : LogPoint) : ℝ := value (scaled point.logarithm 42)

theorem scale_eq (point : LogPoint) : point.scale = point.reciprocal / 2 ^ 53 := by
  rw [scale,value_scaled,Int.cast_natCast]

theorem log_eq (point : LogPoint) : point.log = point.logarithm / 2 ^ 42 := by
  rw [log,value_scaled,Int.cast_natCast]

/-- The argument at which the odd series gives the logarithm of a point. -/
def argument (point : LogPoint) : ℚ :=
  (2 ^ 53 - point.reciprocal : Int) / (2 ^ 53 + point.reciprocal : Int)

/-- The point lies in the middle of its part, and its logarithm is right to 63 places. -/
structure Certified (point : LogPoint) (part : Nat) : Prop where
  low : 2 ^ 59 - 2 ^ 52 ≤ point.reciprocal * (64 + part)
  high : point.reciprocal * (65 + part) ≤ 2 ^ 59 + 2 ^ 52
  belowOne : point.logarithm ≤ 2 ^ 42
  nonnegative : 0 ≤ point.argument
  third : point.argument ≤ 1 / 3
  above : halfLog point.argument - point.logarithm / 2 ^ 42 * halfLog (1 / 3) ≤ 1 / 2 ^ 63
  below : point.logarithm / 2 ^ 42 * halfLog (1 / 3) - halfLog point.argument ≤ 1 / 2 ^ 63

instance (point : LogPoint) (part : Nat) : Decidable (point.Certified part) :=
  decidable_of_iff
    ((2 ^ 59 - 2 ^ 52 ≤ point.reciprocal * (64 + part) ∧
        point.reciprocal * (65 + part) ≤ 2 ^ 59 + 2 ^ 52 ∧ point.logarithm ≤ 2 ^ 42) ∧
      (0 ≤ point.argument ∧ point.argument ≤ 1 / 3) ∧
      halfLog point.argument - point.logarithm / 2 ^ 42 * halfLog (1 / 3) ≤ 1 / 2 ^ 63 ∧
      point.logarithm / 2 ^ 42 * halfLog (1 / 3) - halfLog point.argument ≤ 1 / 2 ^ 63)
    ⟨fun ⟨⟨a,b,c⟩,⟨d,e⟩,f,g⟩ => ⟨a,b,c,d,e,f,g⟩, fun ⟨a,b,c,d,e,f,g⟩ => ⟨⟨a,b,c⟩,⟨d,e⟩,f,g⟩⟩

variable {point : LogPoint} {part : Nat}

theorem Certified.scale_pos (certified : point.Certified part) : 0 < point.scale := by
  have someBit : 0 < point.reciprocal := by
    rcases Nat.eq_zero_or_pos point.reciprocal with none | someBit
    · have low := certified.low
      rw [none] at low
      omega
    · exact someBit
  rw [scale_eq]
  exact div_pos (by exact_mod_cast someBit) (by positivity)

theorem log_nonneg (point : LogPoint) : 0 ≤ point.log := by
  rw [log_eq]
  positivity

theorem Certified.log_le_one (certified : point.Certified part) : point.log ≤ 1 := by
  rw [log_eq,div_le_one (by positivity)]
  exact_mod_cast certified.belowOne

theorem Certified.log_near (certified : point.Certified part) :
    |point.log + Real.logb 2 point.scale| ≤ 1 / 2 ^ 60 := by
  have positive := certified.scale_pos
  have series := halfLog_near certified.nonnegative certified.third
  have argument : (1 + (point.argument : ℝ)) / (1 - (point.argument : ℝ)) = point.scale⁻¹ := by
    have someBit : (0 : ℝ) < point.reciprocal := by
      rw [scale_eq] at positive
      exact (div_pos_iff_of_pos_right (by positivity)).1 positive
    have whole : (2 ^ 53 + point.reciprocal : ℝ) ≠ 0 := by positivity
    have twice : (2 * point.reciprocal : ℝ) ≠ 0 := by positivity
    have sum : 1 + (point.argument : ℝ) = 2 ^ 54 / (2 ^ 53 + point.reciprocal) := by
      rw [LogPoint.argument]
      push_cast
      field_simp
      ring
    have difference : 1 - (point.argument : ℝ) =
        2 * point.reciprocal / (2 ^ 53 + point.reciprocal) := by
      rw [LogPoint.argument]
      push_cast
      field_simp
      ring
    rw [sum,difference,div_div_div_cancel_right₀ whole,scale_eq,inv_div,
      div_eq_div_iff twice someBit.ne']
    ring
  rw [argument,Real.log_inv] at series
  have two := log_two_near
  have above : (halfLog point.argument : ℝ) - point.log * halfLog (1 / 3) ≤ 1 / 2 ^ 63 := by
    have := (Rat.cast_le (K := ℝ)).2 certified.above
    push_cast [← log_eq] at this
    exact this
  have below : point.log * halfLog (1 / 3) - (halfLog point.argument : ℝ) ≤ 1 / 2 ^ 63 := by
    have := (Rat.cast_le (K := ℝ)).2 certified.below
    push_cast [← log_eq] at this
    exact this
  have scaled : |point.log * (1 / 2 * Real.log 2 - halfLog (1 / 3))| ≤ 1 * (1 / 2 ^ 64) := by
    rw [abs_mul,abs_of_nonneg point.log_nonneg]
    exact mul_le_mul certified.log_le_one two (abs_nonneg _) zero_le_one
  have logarithms : |point.log * Real.log 2 + Real.log point.scale| ≤ 1 / 2 ^ 61 := by
    rw [abs_le] at *
    constructor <;> linarith
  have quotient : point.log + Real.logb 2 point.scale =
      (point.log * Real.log 2 + Real.log point.scale) / Real.log 2 := by
    rw [Real.logb]
    field_simp
  rw [quotient,abs_div,abs_of_pos log_two_pos,div_le_iff₀ log_two_pos]
  linarith [log_two_large]

theorem Certified.close (certified : point.Certified part) {z : ℝ} (fromLow : (64 + part) / 64 ≤ z)
    (toHigh : z ≤ (65 + part) / 64) : |z * point.scale - 1| ≤ 1 / 128 := by
  have low : (2 ^ 59 - 2 ^ 52 : ℝ) ≤ point.reciprocal * (64 + part) := by
    have cast : ((2 ^ 59 - 2 ^ 52 : Nat) : ℝ) = 2 ^ 59 - 2 ^ 52 := by norm_num
    rw [← cast]
    exact_mod_cast certified.low
  have high : point.reciprocal * (65 + part) ≤ (2 ^ 59 + 2 ^ 52 : ℝ) := by
    exact_mod_cast certified.high
  have scaleLow : point.reciprocal * (64 + part) = 2 ^ 59 * ((64 + part) / 64 * point.scale) := by
    rw [scale_eq]
    ring
  have scaleHigh : point.reciprocal * (65 + part) = 2 ^ 59 * ((65 + part) / 64 * point.scale) := by
    rw [scale_eq]
    ring
  rw [scaleLow] at low
  rw [scaleHigh] at high
  have above := mul_le_mul_of_nonneg_right fromLow certified.scale_pos.le
  have below := mul_le_mul_of_nonneg_right toHigh certified.scale_pos.le
  rw [abs_le]
  constructor <;> linarith

end LogPoint

theorem logPoint_certified : ∀ part : Fin 64, (logPoint part).Certified part := by decide +kernel

/-- The reciprocal of the logarithm of two, both parts together. -/
def invLn2 : ℚ := 3098164009 / 2 ^ 31 + 12657236604881 / 2 ^ 76

theorem invLn2_nonneg : (0 : ℝ) ≤ invLn2 := by
  rw [invLn2]
  positivity

theorem invLn2_near : |invLn2 * Real.log 2 - 1| ≤ 1 / 2 ^ 60 := by
  have certified : 2 * invLn2 * halfLog (1 / 3) - 1 ≤ 1 / 2 ^ 62 ∧
      1 - 2 * invLn2 * halfLog (1 / 3) ≤ 1 / 2 ^ 62 := by decide +kernel
  have above := (Rat.cast_le (K := ℝ)).2 certified.1
  have below := (Rat.cast_le (K := ℝ)).2 certified.2
  push_cast at above below
  have small : (invLn2 : ℝ) ≤ 2 := by rw [invLn2]; norm_num
  have scaled : |(invLn2 : ℝ) * (1 / 2 * Real.log 2 - halfLog (1 / 3))| ≤ 2 * (1 / 2 ^ 64) := by
    rw [abs_mul,abs_of_nonneg invLn2_nonneg]
    exact mul_le_mul small log_two_near (abs_nonneg _) zero_le_two
  rw [abs_le] at *
  constructor <;> linarith

theorem invLn2_mul_near (y : ℝ) : |invLn2 * y - y / Real.log 2| ≤ |y| / 2 ^ 59 := by
  have quotient : invLn2 * y - y / Real.log 2 = y * (invLn2 * Real.log 2 - 1) / Real.log 2 := by
    have nonzero := log_two_pos.ne'
    field_simp
  rw [quotient,abs_div,abs_mul,abs_of_pos log_two_pos,div_le_iff₀ log_two_pos]
  nlinarith [mul_le_mul_of_nonneg_left invLn2_near (abs_nonneg y),abs_nonneg y,log_two_large]

/-- The first coefficients of the logarithm's series beyond its linear term. -/
def taylor (i : Nat) : ℚ := -(-1) ^ i * invLn2 / (i + 2)

/-- How far a polynomial with other coefficients is from the logarithm, at most. -/
def deviation (coefficients : List ℚ) (bound : ℚ) : ℚ :=
  ∑ i ∈ Finset.range coefficients.length, |coefficients.getD i 0 - taylor i| * bound ^ (i + 2) +
    invLn2 * (bound ^ (coefficients.length + 2) / (1 - bound))

/-- The polynomial beyond the linear term of a logarithm, divided by the square. -/
noncomputable def polynomial (coefficients : List ℚ) (r : ℝ) : ℝ :=
  ∑ i ∈ Finset.range coefficients.length, (coefficients.getD i 0 : ℚ) * r ^ i

@[simp] theorem polynomial_nil (r : ℝ) : polynomial [] r = 0 := rfl

@[simp] theorem polynomial_cons (coefficient : ℚ) (rest : List ℚ) (r : ℝ) :
    polynomial (coefficient :: rest) r = coefficient + r * polynomial rest r := by
  rw [polynomial,List.length_cons,Finset.sum_range_succ',polynomial,Finset.mul_sum,add_comm]
  congr 1
  · simp
  · refine Finset.sum_congr rfl fun i _ => ?_
    rw [List.getD_cons_succ]
    ring

theorem polynomial_near (coefficients : List ℚ) {bound : ℚ} {r : ℝ} (within : |r| ≤ bound)
    (small : bound < 1) :
    |invLn2 * r + r ^ 2 * polynomial coefficients r - invLn2 * Real.log (1 + r)| ≤
      deviation coefficients bound := by
  have small : (bound : ℝ) < 1 := by exact_mod_cast small
  have positive : (0 : ℝ) ≤ bound := (abs_nonneg r).trans within
  have inside : |-r| < 1 := by
    rw [abs_neg]
    exact within.trans_lt small
  have remainder := Real.abs_log_sub_add_sum_range_le inside (coefficients.length + 1)
  rw [Finset.sum_range_succ',abs_neg,sub_neg_eq_add] at remainder
  have bounded : |r| ^ (coefficients.length + 2) / (1 - |r|) ≤
      (bound : ℝ) ^ (coefficients.length + 2) / (1 - bound) :=
    div_le_div₀ (pow_nonneg positive _) (pow_le_pow_left₀ (abs_nonneg r) within _)
      (by linarith) (by linarith)
  have terms : |∑ i ∈ Finset.range coefficients.length,
      ((coefficients.getD i 0 - taylor i : ℚ) : ℝ) * r ^ (i + 2)| ≤
        ∑ i ∈ Finset.range coefficients.length,
          ((|coefficients.getD i 0 - taylor i| : ℚ) : ℝ) * (bound : ℝ) ^ (i + 2) := by
    refine (Finset.abs_sum_le_sum_abs _ _).trans (Finset.sum_le_sum fun i _ => ?_)
    rw [abs_mul,abs_pow,Rat.cast_abs]
    gcongr
  have apart : r ^ 2 * polynomial coefficients r =
      ∑ i ∈ Finset.range coefficients.length,
          ((coefficients.getD i 0 - taylor i : ℚ) : ℝ) * r ^ (i + 2) -
        invLn2 * ∑ i ∈ Finset.range coefficients.length,
          (-r) ^ (i + 1 + 1) / (((i + 1 : Nat) : ℝ) + 1) := by
    rw [polynomial,Finset.mul_sum,Finset.mul_sum,← Finset.sum_sub_distrib]
    refine Finset.sum_congr rfl fun i _ => ?_
    rw [taylor,neg_pow]
    push_cast
    ring
  have total : invLn2 * r + r ^ 2 * polynomial coefficients r - invLn2 * Real.log (1 + r) =
      ∑ i ∈ Finset.range coefficients.length,
          ((coefficients.getD i 0 - taylor i : ℚ) : ℝ) * r ^ (i + 2) -
        invLn2 * (∑ i ∈ Finset.range coefficients.length,
          (-r) ^ (i + 1 + 1) / (((i + 1 : Nat) : ℝ) + 1) + (-r) ^ (0 + 1) / ((0 : Nat) + 1) +
            Real.log (1 + r)) := by
    rw [apart]
    push_cast
    ring
  rw [total,deviation]
  push_cast
  refine (abs_sub _ _).trans (add_le_add (by exact_mod_cast terms) ?_)
  rw [abs_mul,abs_of_nonneg invLn2_nonneg]
  exact mul_le_mul_of_nonneg_left (by simpa using remainder.trans bounded) invLn2_nonneg

theorem polynomial_logb (coefficients : List ℚ) {bound : ℚ} {r : ℝ} (within : |r| ≤ bound)
    (small : bound ≤ 1 / 2) :
    |invLn2 * r + r ^ 2 * polynomial coefficients r - Real.logb 2 (1 + r)| ≤
      deviation coefficients bound + |r| / 2 ^ 58 := by
  have half : |r| ≤ 1 / 2 := by
    have := (Rat.cast_le (K := ℝ)).2 small
    push_cast at this
    linarith
  have series := polynomial_near coefficients within (small.trans_lt (by norm_num))
  have scaled := invLn2_mul_near (Real.log (1 + r))
  have size := log_sub_log_le (by linarith [neg_abs_le r] : 1 / 2 ≤ 1 + r)
    (by norm_num : (1 / 2 : ℝ) ≤ 1)
  rw [Real.log_one,sub_zero,add_sub_cancel_left] at size
  have split := abs_sub_le (invLn2 * r + r ^ 2 * polynomial coefficients r)
    (invLn2 * Real.log (1 + r)) (Real.logb 2 (1 + r))
  rw [Real.logb] at *
  linarith

end Reckoner.Double
