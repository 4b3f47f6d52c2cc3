import Reckoner.Proofs.Double.Logarithm

/-!
# The error of the binary logarithm

The polynomials are evaluated with few enough errors for terms as small as theirs. The rounding
error of the large sum is taken up by the small one, so that only those of the table's sum and of
the last addition count.
-/

namespace Reckoner.Double

section polynomials

def tailCoefficients : List ℚ :=
  [-6497320848556857 / 2 ^ 53, 4331547232371295 / 2 ^ 53, -6497320836280315 / 2 ^ 54,
    649732082919817 / 2 ^ 51, -2165955400213679 / 2 ^ 53, 3713132112116887 / 2 ^ 54]

def nearHeadCoefficients : List ℚ := [-3248660424278399 / 2 ^ 52, 8663094464742391 / 2 ^ 54]

def nearTailCoefficients : List ℚ :=
  [-6497320848555071 / 2 ^ 54, 1299464169723641 / 2 ^ 52, -8663094485487589 / 2 ^ 55,
    3712754672366491 / 2 ^ 54, -6497287952181147 / 2 ^ 55, 2887767071133093 / 2 ^ 54,
    -1304541182758415 / 2 ^ 53, 2350307374626611 / 2 ^ 54]

/-- The coefficients of the polynomial close to one. -/
def nearCoefficients : List ℚ := nearHeadCoefficients ++ nearTailCoefficients

theorem polynomial_nearCoefficients (x : ℝ) : polynomial nearCoefficients x =
    polynomial nearHeadCoefficients x + x * x * polynomial nearTailCoefficients x := by
  rw [nearCoefficients,nearHeadCoefficients]
  simp only [List.cons_append,List.nil_append,polynomial_cons,polynomial_nil]
  ring

variable {r square fourth : Dyadic} {x : ℝ} {a b : Int} {m n : Nat}

theorem Near.linear (rNear : Near 0 (1 / 16) r x) (aSmall : |a| ≤ 2 ^ m)
    (bSmall : 4 * |b| ≤ 3 * 2 ^ n) :
    Near 1 (13 / 16) (Double.mulAdd r (scaled a m) (scaled b n))
      (x * (a / 2 ^ m) + b / 2 ^ n) := by
  have aSize : |value (scaled a m)| ≤ 1 := by
    rw [value_scaled,abs_div,abs_of_pos (by positivity : (0 : ℝ) < 2 ^ m),
      div_le_one (by positivity)]
    exact_mod_cast aSmall
  have bSize : |value (scaled b n)| ≤ 3 / 4 := by
    have bSmall : 4 * |(b : ℝ)| ≤ 3 * 2 ^ n := by exact_mod_cast bSmall
    rw [value_scaled,abs_div,abs_of_pos (by positivity : (0 : ℝ) < 2 ^ n),
      div_le_iff₀ (by positivity)]
    linarith
  have sum := rNear.mulAdd (Near.of_value aSize) (Near.of_value bSize) (by norm_num)
    (by norm_num) (by norm_num) (by norm_num)
  rw [value_scaled,value_scaled] at sum
  exact sum.weaken (le_refl 1) (by norm_num)

theorem Near.squared (rNear : Near 0 (1 / 16) r x) : Near 1 (1 / 256) (Double.mul r r) (x * x) :=
  (rNear.mul rNear (by norm_num) (by norm_num) (by norm_num)).weaken (le_refl 1) (by norm_num)

theorem Near.fourthPower (squareNear : Near 1 (1 / 256) square (x * x)) :
    Near 4 (1 / 65536) (Double.mul square square) (x * x * (x * x)) :=
  (squareNear.mul squareNear (by norm_num) (by norm_num) (by norm_num)).weaken (le_refl 4)
    (by norm_num)

theorem Near.cubic {high low : Dyadic} {y z : ℝ}
    (squareNear : Near 1 (1 / 256) square (x * x)) (highNear : Near 1 (13 / 16) high y)
    (lowNear : Near 1 (13 / 16) low z) :
    Near 5 (27 / 32) (Double.mulAdd square high low) (x * x * y + z) :=
  (squareNear.mulAdd highNear lowNear (by norm_num) (by norm_num) (by norm_num)
    (by norm_num)).weaken (le_refl 5) (by norm_num)

theorem tail_near (rNear : Near 0 (1 / 16) r x)
    (squareNear : Near 1 (1 / 256) square (x * x)) :
    Near 15 (7 / 8) (tail r square) (polynomial tailCoefficients x) := by
  have sum : Near 15 _ (tail r square) _ :=
    squareNear.fourthPower.mulAdd (rNear.linear (by decide) (by decide))
      (squareNear.cubic (rNear.linear (by decide) (by decide))
        (rNear.linear (by decide) (by decide)))
      (by norm_num) (by norm_num) (by norm_num) (by norm_num)
  convert sum.weaken (Y := 7 / 8) (le_refl 15) (by norm_num) using 1
  rw [tailCoefficients]
  simp only [polynomial_cons,polynomial_nil]
  push_cast
  ring

theorem nearHead_near (rNear : Near 0 (1 / 16) r x) :
    Near 1 (13 / 16) (nearHead r) (polynomial nearHeadCoefficients x) := by
  have sum : Near 1 _ (nearHead r) _ := rNear.linear (by decide) (by decide)
  convert sum using 1
  rw [nearHeadCoefficients]
  simp only [polynomial_cons,polynomial_nil]
  push_cast
  ring

theorem nearTail_near (rNear : Near 0 (1 / 16) r x)
    (squareNear : Near 1 (1 / 256) square (x * x))
    (fourthNear : Near 4 (1 / 65536) fourth (x * x * (x * x))) :
    Near 19 (7 / 8) (nearTail r square fourth) (polynomial nearTailCoefficients x) := by
  have sum : Near 19 _ (nearTail r square fourth) _ :=
    fourthNear.mulAdd
      (squareNear.cubic (rNear.linear (by decide) (by decide))
        (rNear.linear (by decide) (by decide)))
      (squareNear.cubic (rNear.linear (by decide) (by decide))
        (rNear.linear (by decide) (by decide)))
      (by norm_num) (by norm_num) (by norm_num) (by norm_num)
  convert sum.weaken (Y := 7 / 8) (le_refl 19) (by norm_num) using 1
  rw [nearTailCoefficients]
  simp only [polynomial_cons,polynomial_nil]
  push_cast
  ring

end polynomials

theorem value_invLn2 : value invLn2High + value invLn2Low = invLn2 := by
  rw [invLn2High,invLn2Low,value_scaled,value_scaled,invLn2]
  push_cast
  ring

theorem logNearOne_near {r : Dyadic} (small : |value r| ≤ 1 / 16) :
    Near 49 (7 / 8) (logNearOne r)
      (invLn2 * value r + value r ^ 2 * polynomial nearCoefficients (value r)) := by
  have rNear := Near.of_value small
  have head := nearHead_near rNear
  have highSize : |value invLn2High| ≤ 3 / 2 := by
    rw [invLn2High,value_scaled]
    norm_num
  have lowSize : |value invLn2Low| ≤ 1 / 2 := by
    rw [invLn2Low,value_scaled]
    norm_num
  have high := rNear.mul (Near.of_value highSize) (by norm_num) (by norm_num) (by norm_num)
  have left := rNear.mulAdd (Near.of_value highSize) high.neg (by norm_num) (by norm_num)
    (by norm_num) (by norm_num)
  have low := rNear.mulAdd (Near.of_value lowSize) left (by norm_num) (by norm_num)
    (by norm_num) (by norm_num)
  have square := rNear.squared
  have sum := square.mulAdd head high (by norm_num) (by norm_num) (by norm_num) (by norm_num)
  have lost := high.sub sum (by norm_num) (by norm_num)
  have regained := square.mulAdd head lost (by norm_num) (by norm_num) (by norm_num) (by norm_num)
  have rest := low.add regained (by norm_num) (by norm_num)
  have terms := square.fourthPower.mulAdd (nearTail_near rNear square square.fourthPower) rest
    (by norm_num) (by norm_num) (by norm_num) (by norm_num)
  have total : Near 49 _ (logNearOne r) _ := sum.add terms (by norm_num) (by norm_num)
  rw [← value_invLn2,polynomial_nearCoefficients]
  convert total.weaken (Y := 7 / 8) (le_refl 49) (by norm_num) using 1
  ring

/-- What the product of a small number and `invLn2High` loses is in the low part. -/
theorem head_error {r high low : Dyadic} (small : |value r| ≤ 1 / 127)
    (highIs : high = mul r invLn2High)
    (lowIs : low = mulAdd r invLn2Low (mulAdd r invLn2High (-high))) :
    |value high| ≤ 1 / 80 ∧ |value low| ≤ 1 / 2 ^ 36 ∧
      |value high + value low - invLn2 * value r| ≤ roundoff / 64 := by
  have highExact : |value r * value invLn2High| ≤ 1 / 84 := by
    rw [abs_mul,invLn2High,value_scaled]
    norm_num [abs_of_pos]
    linarith
  have lowExact : |value r * value invLn2Low| ≤ 1 / 2 ^ 38 := by
    rw [abs_mul,invLn2Low,value_scaled]
    norm_num [abs_of_pos]
    linarith
  have highError := mul_error highExact
  rw [← highIs] at highError
  have leftExact : |value r * value invLn2High + value (-high)| ≤ roundoff / 84 := by
    rw [value_neg,← sub_eq_add_neg,abs_sub_comm]
    linarith
  have leftError := mulAdd_error leftExact
  have lowSum : |value r * value invLn2Low + value (mulAdd r invLn2High (-high))| ≤
      1 / 2 ^ 37 := by
    rw [roundoff,abs_le] at *
    constructor <;> linarith
  have lowError := mulAdd_error lowSum
  rw [← lowIs] at lowError
  rw [← value_invLn2]
  rw [value_neg] at leftError leftExact
  simp only [roundoff,abs_le] at *
  refine ⟨⟨?_,?_⟩,⟨?_,?_⟩,?_,?_⟩ <;> linarith

/-- What a large sum loses is in the small one. -/
theorem sum_error {whole high low sum rest : Dyadic} (wholeSmall : |value whole| ≤ 2 ^ 11)
    (highSmall : |value high| ≤ 1 / 80) (lowSmall : |value low| ≤ 1 / 2 ^ 36)
    (sumIs : sum = add whole high) (restIs : rest = add (add (sub whole sum) high) low) :
    |value rest| ≤ 1 / 2 ^ 30 ∧
      |value sum + value rest - (value whole + value high + value low)| ≤ roundoff / 64 := by
  have sumExact : |value whole + value high| ≤ 2 ^ 12 := by
    rw [abs_le] at *
    constructor <;> linarith
  have sumError := add_error sumExact
  rw [← sumIs] at sumError
  have backExact : |value whole - value sum| ≤ 1 / 79 := by
    rw [roundoff,abs_le] at *
    constructor <;> linarith
  have backError := sub_error backExact
  have lostExact : |value (sub whole sum) + value high| ≤ 1 / 2 ^ 40 := by
    rw [roundoff,abs_le] at *
    constructor <;> linarith
  have lostError := add_error lostExact
  have restExact : |value (add (sub whole sum) high) + value low| ≤ 1 / 2 ^ 35 := by
    rw [roundoff,abs_le] at *
    constructor <;> linarith
  have restError := add_error restExact
  rw [← restIs] at restError
  simp only [roundoff,abs_le] at *
  refine ⟨⟨?_,?_⟩,?_,?_⟩ <;> linarith

theorem tail_error {r : Dyadic} (small : |value r| ≤ 1 / 127) :
    |value (mul r r) * value (tail r (mul r r)) -
        value r ^ 2 * polynomial tailCoefficients (value r)| ≤ roundoff / 256 ∧
      |value (mul r r) * value (tail r (mul r r))| ≤ 1 / 8000 := by
  have rNear : Near 0 (1 / 16) r (value r) := Near.of_value (small.trans (by norm_num))
  have tailNear := tail_near rNear rNear.squared
  have tailSize := tailNear.abs_value_le (by norm_num)
  obtain ⟨tailError,sumSize⟩ := tailNear
  have exactSquare : |value r * value r| ≤ 1 / 16000 := by
    rw [abs_mul]
    nlinarith [abs_nonneg (value r)]
  have squareError := mul_error exactSquare
  have squareSize : |value (mul r r)| ≤ 1 / 15000 := by
    rw [roundoff,abs_le] at *
    constructor <;> linarith
  generalize value (mul r r) = square at *
  generalize value (tail r (mul r r)) = computed at *
  generalize polynomial tailCoefficients (value r) = sum at *
  constructor
  · rw [pow_two]
    calc |square * computed - value r * value r * sum|
        ≤ |square| * |computed - sum| + |square - value r * value r| * |sum| :=
          abs_mul_sub_mul_le _ _ _ _
      _ ≤ 1 / 15000 * ((15 : Nat) * roundoff) + roundoff * (1 / 16000) * (7 / 8) :=
        add_le_add (mul_le_mul squareSize tailError (abs_nonneg _) (by norm_num))
          (mul_le_mul squareError sumSize (abs_nonneg _)
            (mul_nonneg roundoff_pos.le (by norm_num)))
      _ ≤ roundoff / 256 := by push_cast; linarith [roundoff_pos]
  · rw [abs_mul]
    calc |square| * |computed| ≤ 1 / 15000 * (7 / 8 + 1 / 32) :=
        mul_le_mul squareSize tailSize (abs_nonneg _) (by norm_num)
      _ ≤ 1 / 8000 := by norm_num

section parts

variable {exponent : Int} {significand r : Dyadic} {part : Fin 64}

theorem logInPart_sum (bounded : |(exponent : ℝ)| ≤ 1024)
    (rIs : r = mulAdd significand (scaled (logPoint part).reciprocal 53) (-1))
    (small : |value r| ≤ 1 / 127) :
    |value (logInPart exponent significand part) - (exponent + (logPoint part).log +
        (invLn2 * value r + value r ^ 2 * polynomial tailCoefficients (value r)))| ≤
      (2 * |exponent + (logPoint part).log| + 1 / 16) * roundoff := by
  have point : value exponent + value (scaled (logPoint part).logarithm 42) =
      exponent + (logPoint part).log := by
    rw [value_intCast,LogPoint.log]
  have wholeSize : |exponent + (logPoint part).log| ≤ 1025 := by
    have logLe := (logPoint_certified part).log_le_one
    rw [← abs_of_nonneg (logPoint part).log_nonneg] at logLe
    linarith [abs_add_le (exponent : ℝ) (logPoint part).log]
  obtain ⟨whole,wholeIs⟩ : ∃ whole, whole =
    add exponent (scaled (logPoint part).logarithm 42) := ⟨_,rfl⟩
  obtain ⟨high,highIs⟩ : ∃ high, high = mul r invLn2High := ⟨_,rfl⟩
  obtain ⟨low,lowIs⟩ : ∃ low, low = mulAdd r invLn2Low (mulAdd r invLn2High (-high)) := ⟨_,rfl⟩
  obtain ⟨sum,sumIs⟩ : ∃ sum, sum = add whole high := ⟨_,rfl⟩
  obtain ⟨rest,restIs⟩ : ∃ rest, rest = add (add (sub whole sum) high) low := ⟨_,rfl⟩
  obtain ⟨last,lastIs⟩ : ∃ last, last = mulAdd (mul r r) (tail r (mul r r)) rest := ⟨_,rfl⟩
  have result : logInPart exponent significand part = add last sum := by
    rw [lastIs,restIs,sumIs,lowIs,highIs,wholeIs,rIs]
    rfl
  rw [result]
  generalize exponent + (logPoint part).log = w at *
  have wholeError := round_error_le ((value_add _ _).trans point) (le_refl |w|)
  rw [← add,← wholeIs] at wholeError
  have wLe := le_abs_self w
  have wGe := neg_abs_le w
  generalize |w| = size at *
  obtain ⟨highSmall,lowSmall,head⟩ := head_error small highIs lowIs
  obtain ⟨tailError,tailSmall⟩ := tail_error small
  have wholeSmall : |value whole| ≤ 2 ^ 11 := by
    rw [roundoff,abs_le] at *
    constructor <;> linarith
  have sumExact : |value whole + value high| ≤ 2 ^ 12 := by
    rw [abs_le] at *
    constructor <;> linarith
  have highSum := add_error sumExact
  rw [← sumIs] at highSum
  obtain ⟨restSmall,sumError⟩ := sum_error wholeSmall highSmall lowSmall sumIs restIs
  have lastExact : |value (mul r r) * value (tail r (mul r r)) + value rest| ≤ 1 / 4000 :=
    (abs_add_le _ _).trans (by linarith)
  have lastError := mulAdd_error lastExact
  rw [← lastIs] at lastError
  have totalExact : |value last + value sum| ≤ size + 1 / 60 := by
    rw [roundoff,abs_le] at *
    constructor <;> linarith
  have totalError := add_error totalExact
  rw [roundoff,abs_le] at *
  constructor <;> linarith

theorem deviation_tail : deviation tailCoefficients (1 / 127) ≤ 27 / 100 / 2 ^ 53 := by
  decide +kernel

theorem logInPart_terms {z x : ℝ} (positive : 0 < z)
    (close : |z * (logPoint part).scale - 1| ≤ 1 / 128)
    (near : |x - (z * (logPoint part).scale - 1)| ≤ roundoff / 128) :
    |(logPoint part).log + (invLn2 * x + x ^ 2 * polynomial tailCoefficients x) -
        Real.logb 2 z| ≤ 5 / 16 * roundoff := by
  have certified := logPoint_certified part
  have small : |x| ≤ ((1 / 127 : ℚ) : ℝ) := by
    rw [roundoff] at near
    push_cast
    rw [abs_le] at *
    constructor <;> linarith
  have deviation := (Rat.cast_le (K := ℝ)).2 deviation_tail
  have series := polynomial_logb tailCoefficients small (by norm_num)
  have argument := logb_sub_logb_le (a := 1 + x) (b := z * (logPoint part).scale)
    (by push_cast at small; linarith [neg_abs_le x])
    (by linarith [neg_abs_le (z * (logPoint part).scale - 1)])
  rw [add_sub_assoc] at argument
  have table := certified.log_near
  have product : Real.logb 2 (z * (logPoint part).scale) =
      Real.logb 2 z + Real.logb 2 (logPoint part).scale :=
    Real.logb_mul positive.ne' certified.scale_pos.ne'
  rw [product] at argument
  push_cast at deviation small
  have shifted : |1 + (x - z * (logPoint part).scale)| ≤ roundoff / 128 := by
    rwa [← sub_add,add_comm] at near
  rw [roundoff] at *
  generalize |1 + (x - z * (logPoint part).scale)| = shift at *
  generalize |x| = size at *
  rw [abs_le] at *
  constructor <;> linarith

theorem point_log_near {z : ℝ} (positive : 0 < z)
    (close : |z * (logPoint part).scale - 1| ≤ 1 / 128) :
    |(logPoint part).log - Real.logb 2 z| ≤ 1 / 40 := by
  have certified := logPoint_certified part
  have argument := logb_sub_logb_le (a := z * (logPoint part).scale) (b := 1)
    (by linarith [neg_abs_le (z * (logPoint part).scale - 1)]) (by norm_num)
  have table := certified.log_near
  rw [Real.logb_mul positive.ne' certified.scale_pos.ne',Real.logb_one,sub_zero] at argument
  generalize |z * (logPoint part).scale - 1| = size at *
  rw [abs_le] at *
  constructor <;> linarith

theorem logInPart_error (bounded : |(exponent : ℝ)| ≤ 1024) (positive : 0 < value significand)
    (close : |value significand * (logPoint part).scale - 1| ≤ 1 / 128) :
    |value (logInPart exponent significand part) -
        (exponent + Real.logb 2 (value significand))| ≤
      (2 * |exponent + Real.logb 2 (value significand)| + 7 / 16) * roundoff := by
  have argument : value significand * value (scaled (logPoint part).reciprocal 53) + value (-1) =
      value significand * (logPoint part).scale - 1 := by
    have one : value (-1) = -1 := by exact_mod_cast value_intCast (-1)
    rw [one,LogPoint.scale,sub_eq_add_neg]
  obtain ⟨r,rIs⟩ : ∃ r, r = mulAdd significand (scaled (logPoint part).reciprocal 53) (-1) :=
    ⟨_,rfl⟩
  have near := mulAdd_error (argument ▸ close)
  rw [argument,← rIs,mul_one_div] at near
  have small : |value r| ≤ 1 / 127 := by
    rw [roundoff] at near
    rw [abs_le] at *
    constructor <;> linarith
  have sum := logInPart_sum bounded rIs small
  have terms := logInPart_terms positive close near
  have point := point_log_near positive close
  have size := abs_add_le (exponent + Real.logb 2 (value significand))
    ((logPoint part).log - Real.logb 2 (value significand))
  rw [add_add_sub_cancel] at size
  have total := abs_add_le
    (value (logInPart exponent significand part) - (exponent + (logPoint part).log +
      (invLn2 * value r + value r ^ 2 * polynomial tailCoefficients (value r))))
    ((logPoint part).log + (invLn2 * value r + value r ^ 2 * polynomial tailCoefficients (value r)) -
      Real.logb 2 (value significand))
  have apart : ∀ a e p t l : ℝ, a - (e + p + t) + (p + t - l) = a - (e + l) := by
    intros
    ring
  rw [apart] at total
  calc |value (logInPart exponent significand part) - (exponent + Real.logb 2 (value significand))|
      ≤ (2 * |exponent + (logPoint part).log| + 1 / 16) * roundoff + 5 / 16 * roundoff := by linarith
    _ = (2 * |exponent + (logPoint part).log| + 3 / 8) * roundoff := by ring
    _ ≤ (2 * |exponent + Real.logb 2 (value significand)| + 7 / 16) * roundoff :=
      mul_le_mul_of_nonneg_right (by linarith) roundoff_pos.le

end parts

theorem leading_part {n : Nat} (someBit : n ≠ 0) {part : Fin 64}
    (is : part = Fin.ofNat 64 ((n * 64) >>> Nat.log2 n)) :
    (64 + part) * 2 ^ Nat.log2 n ≤ n * 64 ∧ n * 64 ≤ (65 + part) * 2 ^ Nat.log2 n := by
  have low : 2 ^ Nat.log2 n ≤ n := Nat.log2_self_le someBit
  have high : n < 2 * 2 ^ Nat.log2 n := by
    rw [← Nat.pow_succ']
    exact Nat.lt_log2_self
  rw [Nat.shiftRight_eq_div_pow] at is
  generalize 2 ^ Nat.log2 n = unit at *
  have unitPos : 0 < unit := by omega
  have fromLow : 64 ≤ n * 64 / unit := (Nat.le_div_iff_mul_le unitPos).2 (by omega)
  have toHigh : n * 64 / unit < 128 := (Nat.div_lt_iff_lt_mul unitPos).2 (by omega)
  have leading : 64 + (part : Nat) = n * 64 / unit := by
    rw [is,Fin.val_ofNat]
    omega
  have rest : 65 + (part : Nat) = n * 64 / unit + 1 := by omega
  rw [leading,rest]
  exact ⟨Nat.div_mul_le_self _ _,(Nat.lt_mul_of_div_lt (Nat.lt_succ_self _) unitPos).le⟩

theorem significand_bounds {n : Nat} (someBit : n ≠ 0) :
    1 ≤ (n : ℝ) / 2 ^ Nat.log2 n ∧ (n : ℝ) / 2 ^ Nat.log2 n < 2 := by
  have unitPos : (0 : ℝ) < 2 ^ Nat.log2 n := by positivity
  constructor
  · rw [le_div_iff₀ unitPos,one_mul]
    exact_mod_cast Nat.log2_self_le someBit
  · rw [div_lt_iff₀ unitPos,← pow_succ']
    exact_mod_cast Nat.lt_log2_self

theorem exponent_bounded {z : ℝ} {exponent : Int} {limit : Nat} (oneLe : 1 ≤ z) (ltTwo : z < 2)
    (half : 1 / 2 ≤ z * 2 ^ exponent) (below : z * 2 ^ exponent < 2 ^ limit)
    (someLimit : 1 ≤ limit) : |(exponent : ℝ)| ≤ limit := by
  have unitPos : (0 : ℝ) < 2 ^ exponent := by positivity
  have high : (2 : ℝ) ^ exponent < 2 ^ (limit : Int) := by
    rw [zpow_natCast]
    nlinarith
  have low : (2 : ℝ) ^ (-1 : Int) < 2 ^ (exponent + 1) := by
    rw [zpow_add_one₀ two_ne_zero,zpow_neg_one]
    nlinarith
  have toHigh := (zpow_lt_zpow_iff_right₀ one_lt_two).1 high
  have fromLow := (zpow_lt_zpow_iff_right₀ one_lt_two).1 low
  have bounded : |exponent| ≤ limit := abs_le.2 ⟨by omega,by omega⟩
  exact_mod_cast bounded

theorem logInPart_leading {n : Nat} {k : Int} (someBit : n ≠ 0)
    (half : 1 / 2 ≤ (n : ℝ) * 2 ^ (-k)) (below : (n : ℝ) * 2 ^ (-k) < 2 ^ 1024) :
    |value (logInPart (Nat.log2 n - k) (scaled n (Nat.log2 n))
        (Fin.ofNat 64 ((n * 64) >>> Nat.log2 n))) - Real.logb 2 (n * 2 ^ (-k))| ≤
      (2 * |Real.logb 2 (n * 2 ^ (-k))| + 7 / 16) * roundoff := by
  obtain ⟨part,partIs⟩ : ∃ part, part = Fin.ofNat 64 ((n * 64) >>> Nat.log2 n) := ⟨_,rfl⟩
  obtain ⟨fromLow,toHigh⟩ := leading_part someBit partIs
  obtain ⟨oneLe,ltTwo⟩ := significand_bounds someBit
  rw [← partIs]
  generalize Nat.log2 n = bits at *
  have unitPos : (0 : ℝ) < 2 ^ bits := by positivity
  have significand : value (scaled n bits) = n / 2 ^ bits := by
    rw [value_scaled]
    push_cast
    rfl
  have partLow : (64 + (part : Nat) : ℝ) / 64 ≤ n / 2 ^ bits := by
    rw [div_le_div_iff₀ (by norm_num) unitPos]
    exact_mod_cast fromLow
  have partHigh : (n : ℝ) / 2 ^ bits ≤ (65 + (part : Nat)) / 64 := by
    rw [div_le_div_iff₀ unitPos (by norm_num)]
    exact_mod_cast toHigh
  have split : (n : ℝ) * 2 ^ (-k) = n / 2 ^ bits * 2 ^ ((bits : Int) - k) := by
    rw [zpow_sub₀ two_ne_zero,zpow_natCast,zpow_neg]
    field_simp
  have logarithm : Real.logb 2 (n / 2 ^ bits * 2 ^ ((bits : Int) - k)) =
      ((bits - k : Int) : ℝ) + Real.logb 2 (n / 2 ^ bits) := by
    rw [Real.logb_mul (by linarith) (by positivity),← Real.rpow_intCast,
      Real.logb_rpow two_pos (by norm_num),add_comm]
  rw [split] at half below ⊢
  have bounded : |((bits - k : Int) : ℝ)| ≤ (1024 : Nat) :=
    exponent_bounded oneLe ltTwo half below (by norm_num)
  have positive : 0 < value (scaled n bits) := by
    rw [significand]
    linarith
  have close : |value (scaled n bits) * (logPoint part).scale - 1| ≤ 1 / 128 := by
    rw [significand]
    exact (logPoint_certified part).close partLow partHigh
  have error := logInPart_error (by exact_mod_cast bounded) positive close
  rwa [significand,← logarithm] at error

theorem log2_outside {x : Dyadic} (half : 1 / 2 ≤ value x) (below : value x < 2 ^ 1024)
    (outside : ¬ (nearLow ≤ x ∧ x < nearHigh)) :
    |value (log2 x) - Real.logb 2 (value x)| ≤
      (2 * |Real.logb 2 (value x)| + 7 / 16) * roundoff := by
  cases x with
  | zero => norm_num [value] at half
  | ofOdd n k odd =>
    simp only [log2,if_neg outside]
    rw [value_ofOdd] at half below ⊢
    have nPos : 0 < n := by
      have product : (0 : ℝ) < n * 2 ^ (-k) := by linarith
      exact_mod_cast (pos_iff_pos_of_mul_pos product).2 (by positivity)
    obtain ⟨size,rfl⟩ := Int.eq_ofNat_of_zero_le nPos.le
    have someBit : size ≠ 0 := by omega
    exact logInPart_leading someBit half below

/-- From two on, where the interval around one is not reached. -/
theorem log2_error {x : Dyadic} (twoLe : 2 ≤ value x) (below : value x < 2 ^ 1024) :
    |value (log2 x) - Real.logb 2 (value x)| ≤ 5 / 2 * roundoff * Real.logb 2 (value x) := by
  have outside : ¬ (nearLow ≤ x ∧ x < nearHigh) := by
    rintro ⟨-,inside⟩
    rw [← value_lt,nearHigh,value_scaled] at inside
    norm_num at inside
    linarith
  have oneLe : 1 ≤ Real.logb 2 (value x) := by
    rw [Real.le_logb_iff_rpow_le one_lt_two (by linarith),Real.rpow_one]
    exact twoLe
  have error := log2_outside (by linarith) below outside
  rw [abs_of_nonneg (by linarith : 0 ≤ Real.logb 2 (value x))] at error
  nlinarith [roundoff_pos]

theorem deviation_near : deviation nearCoefficients (1 / 16) ≤ 60 / 2 ^ 53 := by decide +kernel

/-- Below one, where the logarithm may be as small as one likes. -/
theorem log2_fraction {x : Dyadic} (half : 1 / 2 ≤ value x) (below : value x < 1) :
    |value (log2 x) - Real.logb 2 (value x)| ≤ 1 / 2 ^ 46 := by
  by_cases inside : nearLow ≤ x ∧ x < nearHigh
  · have low := inside.1
    rw [← value_le,nearLow,value_scaled] at low
    norm_num at low
    have difference : value (x - 1) = value x - 1 := by
      rw [value_sub]
      congr 1
      exact_mod_cast value_natCast 1
    have small : |value (x - 1)| ≤ 1 / 16 := by
      rw [difference,abs_le]
      constructor <;> linarith
    have within : |value (x - 1)| ≤ ((1 / 16 : ℚ) : ℝ) := by
      push_cast
      exact small
    have computed := (logNearOne_near small).error
    have deviation := (Rat.cast_le (K := ℝ)).2 deviation_near
    have series := polynomial_logb nearCoefficients within (by norm_num)
    rw [difference,add_sub_cancel] at series
    rw [difference] at computed small
    simp only [log2,if_pos inside]
    push_cast at computed deviation
    rw [roundoff] at computed
    generalize |value x - 1| = size at *
    rw [abs_le] at *
    constructor <;> linarith
  · have error := log2_outside half (below.trans_le (one_le_pow₀ one_le_two)) inside
    have logarithmLow : -1 ≤ Real.logb 2 (value x) := by
      rw [Real.le_logb_iff_rpow_le one_lt_two (by linarith),Real.rpow_neg_one]
      linarith
    have logarithmHigh : Real.logb 2 (value x) ≤ 0 :=
      Real.logb_nonpos one_lt_two (by linarith) below.le
    rw [abs_of_nonpos logarithmHigh] at error
    rw [roundoff] at error
    linarith

end Reckoner.Double
