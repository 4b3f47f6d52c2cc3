import Reckoner.Proofs.Double.Log2
import Reckoner.Operator.Arithmetic

/-!
# The estimated size of a power

The estimate is off by two to the power of -51 at most, relative to the exact size. That is how
far a power may exceed the bound on its size, and how close to the bound one may be refused.
-/

namespace Reckoner.PowerSize

open Double

/-- What is kept of a number in 53 bits, with its length. -/
structure Keeps (significand bits n : Nat) : Prop where
  low : 2 ^ 52 ≤ significand
  high : significand < 2 ^ 53
  below : significand * 2 ^ bits ≤ n * 2 ^ 53
  above : n * 2 ^ 53 < (significand + 1) * 2 ^ bits
  short : bits ≤ 53 → significand * 2 ^ bits = n * 2 ^ 53

theorem keeps_shifted {n : Nat} (someBit : n ≠ 0) :
    Keeps (n <<< precision >>> bitLength n) (bitLength n) n := by
  have leading : 2 ^ Nat.log2 n ≤ n := Nat.log2_self_le someBit
  have next := lt_two_pow_bitLength n
  have unit : 2 ^ bitLength n = 2 * 2 ^ Nat.log2 n := by
    rw [bitLength_eq someBit,Nat.pow_succ']
  have unitPos := Nat.two_pow_pos (bitLength n)
  rw [Nat.shiftLeft_eq,Nat.shiftRight_eq_div_pow,precision]
  exact {
    low := (Nat.le_div_iff_mul_le unitPos).2 (by omega)
    high := (Nat.div_lt_iff_lt_mul unitPos).2 (by omega)
    below := Nat.div_mul_le_self _ _
    above := Nat.lt_mul_of_div_lt (Nat.lt_succ_self _) unitPos
    short := fun short => Nat.div_mul_cancel ((Nat.pow_dvd_pow 2 short).mul_left n)
  }

theorem value_fraction (significand : Nat) :
    value (.ofIntWithPrec significand precision) = significand / 2 ^ 53 := by
  rw [value_ofIntWithPrec,zpow_neg,zpow_natCast,Int.cast_natCast,precision,div_eq_mul_inv]

theorem value_leading (significand bits : Nat) :
    value (.ofIntWithPrec significand (precision - bits)) = significand / 2 ^ 53 * 2 ^ bits := by
  rw [value_ofIntWithPrec,neg_sub,zpow_sub₀ two_ne_zero,zpow_natCast,zpow_natCast,
    Int.cast_natCast,precision]
  ring

section logarithms

variable {significand bits n : Nat} (keeps : Keeps significand bits n)

include keeps

theorem Keeps.fraction_bounds : 1 / 2 ≤ value (.ofIntWithPrec significand precision) ∧
    value (.ofIntWithPrec significand precision) < 1 := by
  have low : (2 ^ 52 : ℝ) ≤ significand := by exact_mod_cast keeps.low
  have high : (significand : ℝ) < 2 ^ 53 := by exact_mod_cast keeps.high
  rw [value_fraction]
  constructor
  · rw [le_div_iff₀ (by positivity)]
    linarith
  · rwa [div_lt_one (by positivity)]

theorem Keeps.log_whole (someBits : 2 ≤ bits) (whole : bits ≤ wholeBits) :
    |value (log2 (.ofIntWithPrec significand (precision - bits))) -
        Real.logb 2 (value (.ofIntWithPrec significand (precision - bits)))| ≤
      5 / 2 * roundoff *
        Real.logb 2 (value (.ofIntWithPrec significand (precision - bits))) := by
  obtain ⟨half,ltOne⟩ := keeps.fraction_bounds
  have fourLe : (2 : ℝ) ^ 2 ≤ 2 ^ bits := pow_le_pow_right₀ one_le_two someBits
  have leLimit : (2 : ℝ) ^ bits ≤ 2 ^ wholeBits := pow_le_pow_right₀ one_le_two whole
  rw [value_fraction] at half ltOne
  refine log2_error ?_ ?_
  · rw [value_leading]
    nlinarith
  · rw [value_leading,← wholeBits]
    nlinarith

theorem Keeps.log_split (long : wholeBits < bits) :
    |value (add bits (log2 (.ofIntWithPrec significand precision))) -
        Real.logb 2 (value (.ofIntWithPrec significand (precision - bits)))| ≤
      5 / 2 * roundoff *
        Real.logb 2 (value (.ofIntWithPrec significand (precision - bits))) := by
  obtain ⟨half,ltOne⟩ := keeps.fraction_bounds
  have fraction := log2_fraction half ltOne
  have logarithm : Real.logb 2 (value (.ofIntWithPrec significand (precision - bits))) =
      bits + Real.logb 2 (value (.ofIntWithPrec significand precision)) := by
    rw [value_leading,← value_fraction,Real.logb_mul (by linarith) (by positivity),Real.logb_pow,
      Real.logb_self_eq_one one_lt_two,mul_one,add_comm]
  have low : -1 ≤ Real.logb 2 (value (.ofIntWithPrec significand precision)) := by
    rw [Real.le_logb_iff_rpow_le one_lt_two (by linarith),Real.rpow_neg_one]
    linarith
  have long : (1025 : ℝ) ≤ bits := by exact_mod_cast long
  have rounded := round_error_le (value_add bits (log2 (.ofIntWithPrec significand precision)))
    (le_refl _)
  rw [← add,value_natCast] at rounded
  rw [logarithm]
  generalize Real.logb 2 (value (.ofIntWithPrec significand precision)) = part at *
  generalize value (log2 (.ofIntWithPrec significand precision)) = computed at *
  have nonneg : 0 ≤ bits + computed := by linarith [(abs_le.1 fraction).1]
  rw [abs_of_nonneg nonneg] at rounded
  rw [roundoff,abs_le] at *
  constructor <;> linarith

end logarithms

/-- The number whose logarithm is taken for a base. -/
def kept (base : Nat) : Dyadic :=
  .ofIntWithPrec (roundNat base <<< precision >>> bitLength (roundNat base) : Nat)
    (precision - bitLength (roundNat base) : Int)

variable {base : Nat} (twoLe : 2 ≤ base)

include twoLe

theorem two_le_roundNat : 2 ≤ roundNat base := by
  have below := (roundNat_near base).2
  omega

theorem keeps_rounded : Keeps (roundNat base <<< precision >>> bitLength (roundNat base))
    (bitLength (roundNat base)) (roundNat base) :=
  keeps_shifted (by have := two_le_roundNat twoLe; omega)

theorem kept_eq (short : base < 2 ^ 53) : value (kept base) = base := by
  have someBit : base ≠ 0 := by omega
  have bits : bitLength base ≤ precision := by
    rw [bitLength_eq someBit]
    exact (Nat.log2_lt someBit).2 short
  have whole := (keeps_rounded twoLe).short (by rw [roundNat_eq_self bits]; exact bits)
  rw [kept,value_leading,div_mul_eq_mul_div,div_eq_iff (by positivity)]
  rw [roundNat_eq_self bits] at whole ⊢
  exact_mod_cast whole

/-- A longer base is rounded, and less than two more errors are cut off. -/
theorem kept_near : |value (kept base) - base| ≤ 7 / 2 * roundoff * base := by
  obtain ⟨low,-,below,above,-⟩ := keeps_rounded twoLe
  rw [kept,value_leading,div_mul_eq_mul_div]
  generalize roundNat base <<< precision >>> bitLength (roundNat base) = significand at *
  generalize bitLength (roundNat base) = bits at *
  have low : (2 ^ 52 : ℝ) ≤ significand := by exact_mod_cast low
  have below : (significand * 2 ^ bits : ℝ) ≤ roundNat base * 2 ^ 53 := by exact_mod_cast below
  have above : (roundNat base * 2 ^ 53 : ℝ) ≤ (significand + 1) * 2 ^ bits := by
    exact_mod_cast above.le
  rw [add_mul,one_mul] at above
  have unitPos : (0 : ℝ) < 2 ^ bits := by positivity
  have rounded := roundNat_error base
  have nonneg : (0 : ℝ) ≤ base := by positivity
  have unit : (2 ^ bits : ℝ) * 2 ^ 52 ≤ significand * 2 ^ bits := by nlinarith
  rw [roundoff] at *
  generalize (significand : ℝ) * 2 ^ bits = product at *
  rw [abs_le] at *
  constructor <;> linarith

theorem one_le_logb : 1 ≤ Real.logb 2 base := by
  rw [Real.le_logb_iff_rpow_le one_lt_two (by positivity),Real.rpow_one]
  exact_mod_cast twoLe

theorem kept_logb_near :
    |Real.logb 2 (value (kept base)) - Real.logb 2 base| ≤ roundoff / 5 * Real.logb 2 base := by
  by_cases short : base < 2 ^ 53
  · rw [kept_eq twoLe short,sub_self,abs_zero]
    exact mul_nonneg (by linarith [roundoff_pos]) (by linarith [one_le_logb twoLe])
  · have basePos : (0 : ℝ) < base := by positivity
    have near := kept_near twoLe
    generalize value (kept base) = kept at *
    have quotient : |kept / base - 1| ≤ 7 / 2 * roundoff := by
      rw [div_sub_one basePos.ne',abs_div,abs_of_pos basePos,div_le_iff₀ basePos]
      exact near
    have half : 1 / 2 ≤ kept / base := by
      rw [roundoff] at quotient
      linarith [neg_abs_le (kept / base - 1)]
    have keptPos : 0 < kept := by
      have positive : 0 < kept / base := by linarith
      exact (div_pos_iff_of_pos_right basePos).1 positive
    have long : 53 ≤ Real.logb 2 base := by
      rw [Real.le_logb_iff_rpow_le one_lt_two basePos]
      exact_mod_cast Nat.le_of_not_lt short
    have logarithms := logb_sub_logb_le half (by norm_num : (1 / 2 : ℝ) ≤ 1)
    rw [Real.logb_one,sub_zero,Real.logb_div keptPos.ne' basePos.ne'] at logarithms
    rw [roundoff] at *
    linarith

theorem bitsOf_kept :
    |value (bitsOf base) - Real.logb 2 (value (kept base))| ≤
      5 / 2 * roundoff * Real.logb 2 (value (kept base)) := by
  have keptBits := keeps_rounded twoLe
  have least : 2 ^ 1 < 2 ^ bitLength (roundNat base) :=
    (two_le_roundNat twoLe).trans_lt (lt_two_pow_bitLength (roundNat base))
  have someBits : 2 ≤ bitLength (roundNat base) := (Nat.pow_lt_pow_iff_right one_lt_two).1 least
  rw [kept]
  by_cases whole : bitLength (roundNat base) ≤ wholeBits
  · have exactBits : bitsOf base = _ := if_pos whole
    rw [exactBits]
    exact keptBits.log_whole someBits whole
  · have splitBits : bitsOf base = _ := if_neg whole
    rw [splitBits]
    exact keptBits.log_split (Nat.lt_of_not_le whole)

theorem bitsOf_error :
    |value (bitsOf base) - Real.logb 2 base| ≤ 11 / 4 * roundoff * Real.logb 2 base := by
  have computed := bitsOf_kept twoLe
  have near := kept_logb_near twoLe
  have oneLe := one_le_logb twoLe
  rw [roundoff,abs_le] at *
  constructor <;> linarith

/-- The size of a power, which is the exponent times the size of the base, is estimated with four
errors at most. -/
theorem estimate_error (exponent : Nat) :
    |value (mul exponent (bitsOf base)) - Real.logb 2 ((base : ℝ) ^ exponent)| ≤
      4 * roundoff * Real.logb 2 ((base : ℝ) ^ exponent) := by
  have oneLe := one_le_logb twoLe
  have baseError := bitsOf_error twoLe
  have rounded := round_error_le (value_mul exponent (bitsOf base)) (le_refl _)
  rw [← mul,value_natCast] at rounded
  rw [Real.logb_pow]
  have exponentNonneg : (0 : ℝ) ≤ exponent := by positivity
  have positive : 0 ≤ value (bitsOf base) := by
    rw [roundoff,abs_le] at baseError
    linarith
  rw [abs_of_nonneg (mul_nonneg exponentNonneg positive)] at rounded
  have scaled : |exponent * value (bitsOf base) - exponent * Real.logb 2 base| ≤
      11 / 4 * roundoff * (exponent * Real.logb 2 base) := by
    rw [← mul_sub,abs_mul,abs_of_nonneg exponentNonneg,mul_left_comm]
    exact mul_le_mul_of_nonneg_left baseError exponentNonneg
  have sizeNonneg : 0 ≤ exponent * Real.logb 2 base := mul_nonneg exponentNonneg (by linarith)
  rw [roundoff,abs_le] at *
  constructor <;> linarith

omit twoLe in
theorem fits_iff (limit : Int) (base exponent : Nat) :
    fits limit base exponent = true ↔ value (mul exponent (bitsOf base)) < limit := by
  rw [fits,decide_eq_true_eq,← value_lt,value_intCast]

theorem size_of_fits {limit : Int} {exponent : Nat} (passes : fits limit base exponent = true) :
    (1 - 1 / 2 ^ 51) * Real.logb 2 ((base : ℝ) ^ exponent) < limit := by
  rw [fits_iff] at passes
  have error := estimate_error twoLe exponent
  rw [roundoff,abs_le] at error
  linarith

theorem fits_of_size {limit : Int} {exponent : Nat}
    (small : (1 + 1 / 2 ^ 51) * Real.logb 2 ((base : ℝ) ^ exponent) < limit) :
    fits limit base exponent = true := by
  rw [fits_iff]
  have error := estimate_error twoLe exponent
  rw [roundoff,abs_le] at error
  linarith

end PowerSize

theorem one_lt_abs_iff {base : Int} : 1 < |base| ↔ 2 ≤ base.natAbs := by
  rw [Int.abs_eq_natAbs]
  omega

theorem applyText_power {limit base exponent result : Int} (large : 1 < |base|) :
    applyText limit ['^'] base exponent = .ok result ↔
      (0 ≤ exponent ∧ exponent ≤ maxExponent) ∧
        PowerSize.fits limit base.natAbs exponent.toNat = true ∧
          result = base ^ exponent.toNat := by
  have grows : 1 < base.natAbs := one_lt_abs_iff.1 large
  have isPower : applyText limit ['^'] base exponent = power limit base exponent := rfl
  rw [isPower,power]
  split
  next negative => simp [not_le.2 negative]
  next natural =>
    split
    next tooLarge => simp [not_le.2 tooLarge]
    next moderate =>
      simp only [grows,decide_true,Bool.true_and,Bool.not_eq_true']
      split
      next refused => simp [refused]
      next passes =>
        simp [not_lt.1 natural,not_lt.1 moderate,passes,eq_comm]

theorem cast_abs_power (base : Int) (exponent : Nat) :
    ((|base ^ exponent| : Int) : ℝ) = (base.natAbs : ℝ) ^ exponent := by
  rw [abs_pow,Int.cast_pow,Int.abs_eq_natAbs,Int.cast_natCast]

/-- A power that is returned exceeds the bound on its bits by no more than two to the power of -51
of its size, which is one bit as long as the bound is below two to the power of 51. -/
theorem applyText_power_size {limit base exponent result : Int} (large : 1 < |base|)
    (returned : applyText limit ['^'] base exponent = .ok result) :
    1 ≤ limit ∧ result = base ^ exponent.toNat ∧
      (1 - 1 / 2 ^ 51) * Real.logb 2 (|result| : Int) < limit ∧
      (limit < 2 ^ 51 → |result| < 2 ^ (limit.toNat + 1)) := by
  obtain ⟨-,passes,rfl⟩ := (applyText_power large).1 returned
  have twoLe := one_lt_abs_iff.1 large
  have size := PowerSize.size_of_fits twoLe passes
  rw [← cast_abs_power] at size
  have oneLe : (1 : ℝ) ≤ (|base ^ exponent.toNat| : Int) := by
    rw [cast_abs_power]
    exact one_le_pow₀ (by exact_mod_cast twoLe.trans' one_le_two)
  have nonneg := Real.logb_nonneg one_lt_two oneLe
  have positive : 1 ≤ limit := by
    have above : (0 : ℝ) < limit := by linarith
    exact_mod_cast above
  refine ⟨positive,rfl,size,fun small => ?_⟩
  have small : (limit : ℝ) + 1 ≤ 2 ^ 51 := by exact_mod_cast small
  have bits : Real.logb 2 (|base ^ exponent.toNat| : Int) < (limit.toNat + 1 : Nat) := by
    have natural : (limit.toNat : ℝ) = limit := by exact_mod_cast Int.toNat_of_nonneg (by omega)
    rw [Nat.cast_add,Nat.cast_one,natural]
    linarith
  rw [Real.logb_lt_iff_lt_rpow one_lt_two (by linarith),Real.rpow_natCast] at bits
  exact_mod_cast bits

theorem applyText_power_size_of_square :
    (1 < |(-5 : Int)| ∧ applyText 5 ['^'] (-5) 2 = .ok 25) ∧
      (1 - 1 / 2 ^ 51) * Real.logb 2 (|25| : Int) < (5 : Int) ∧ |(25 : Int)| < 2 ^ 6 := by
  have large : 1 < |(-5 : Int)| := by decide
  have returned : applyText 5 ['^'] (-5) 2 = .ok 25 := by decide +kernel
  have size := applyText_power_size large returned
  exact ⟨⟨large,returned⟩,size.2.2.1,size.2.2.2 (by decide)⟩

/-- The bound itself may be exceeded: the fifteenth power of this base has one bit more, and its
estimate is rounded to below the bound. -/
theorem not_power_below_limit :
    ¬ ∀ limit base exponent result : Int, 1 < |base| →
      applyText limit ['^'] base exponent = .ok result →
        1 ≤ limit ∧ |result| < 2 ^ limit.toNat := by
  intro belowLimit
  have returned : applyText 965 ['^'] 23241441160490167843 15 =
      .ok (23241441160490167843 ^ 15) := by decide +kernel
  have below := (belowLimit 965 _ 15 _ (by decide) returned).2
  exact absurd below (by decide +kernel)

/-- A power is not refused for its size when the bound is above that by as much. -/
theorem applyText_power_of_size {limit base exponent : Int} (large : 1 < |base|)
    (natural : 0 ≤ exponent) (moderate : exponent ≤ maxExponent)
    (small : (1 + 1 / 2 ^ 51) * Real.logb 2 (|base ^ exponent.toNat| : Int) < limit) :
    applyText limit ['^'] base exponent = .ok (base ^ exponent.toNat) := by
  rw [cast_abs_power] at small
  exact (applyText_power large).2
    ⟨⟨natural,moderate⟩,PowerSize.fits_of_size (one_lt_abs_iff.1 large) small,rfl⟩

end Reckoner
