import Reckoner.Proofs.Numeral.Decimal

/-!
# Canonical numerals

The one form in which an integer is written: `canonical_iff_write`. Its digits are as many as the
limit counts, for a number that is printed and for a number that is read.
-/

namespace Reckoner

open Nat (toDigits)

namespace Numeral

/-- Decimal digits of which the first is no zero. -/
structure Significant (digits : Text) : Prop where
  someDigit : digits ≠ []
  all : ∀ c ∈ digits, c.isDigit = true
  noZero : ∀ c ∈ digits.head?, c ≠ '0'

/-- A numeral as integers are written: no zeros lead, and a minus sign stands in front of the
digits of a negative number only. -/
inductive Canonical : Text → Int → Prop
  | zero : Canonical ['0'] 0
  | positive {digits : Text} (significant : Significant digits) : Canonical digits (decimal digits)
  | negative {digits : Text} (significant : Significant digits) : Canonical ('-' :: digits) (-decimal digits)

variable {digits text : Text} {c : Char} {m : Nat} {n : Int}

theorem decimal_eq_ofDigitChars (digits : Text) : decimal digits = Nat.ofDigitChars 10 digits 0 := by
  rw [decimal,List.map_reverse,← ofDigits_eq,ofDigits,List.foldl_map]
  rfl

theorem decimal_toDigits (m : Nat) : decimal (toDigits 10 m) = m := by
  rw [decimal_eq_ofDigitChars,Nat.ofDigitChars_ten_toDigits]

theorem decimal_append_singleton (front : Text) (c : Char) :
    decimal (front ++ [c]) = 10 * decimal front + (c.toNat - 48) := by
  simp only [decimal_eq_ofDigitChars,Nat.ofDigitChars_append]
  rfl

theorem decimal_lt (all : ∀ c ∈ digits, c.isDigit = true) : decimal digits < 10 ^ digits.length := by
  have small : ∀ value ∈ digits.reverse.map fun c => c.toNat - 48, value < 10 := by
    intro value member
    obtain ⟨c,inside,rfl⟩ := List.mem_map.mp member
    have := isDigit_bounds (all c (List.mem_reverse.mp inside))
    omega
  have bound := Nat.ofDigits_lt_base_pow_length (by omega) small
  rwa [List.length_map,List.length_reverse] at bound

theorem significant_toDigits (positive : 0 < m) : Significant (toDigits 10 m) := by
  refine ⟨Nat.toDigits_ne_nil,fun c => Nat.isDigit_of_mem_toDigits (by omega) (by omega),?_⟩
  have dropped := dropWhile_block (lt_radix_level m)
  rw [if_neg (by omega)] at dropped
  intro c head
  have first := List.head?_dropWhile_not (· = '0') (block (level m) m)
  rw [dropped,Option.mem_def.mp head] at first
  simpa using first

theorem digitChar_of_isDigit (digit : c.isDigit = true) : Nat.digitChar (c.toNat - 48) = c := by
  have bounds := isDigit_bounds digit
  have small : c.toNat - 48 < 10 := by omega
  rw [← Char.toNat_inj,Nat.toNat_digitChar_of_lt_ten small]
  omega

theorem pos_of_toDigits (same : toDigits 10 m = digits) (noZero : ∀ c ∈ digits.head?, c ≠ '0') :
    0 < m := by
  apply Nat.pos_of_ne_zero
  rintro rfl
  subst same
  exact noZero '0' rfl rfl

theorem Significant.toDigits_decimal (significant : Significant digits) :
    toDigits 10 (decimal digits) = digits := by
  obtain ⟨someDigit,all,noZero⟩ := significant
  induction digits using List.reverseRecOn with
  | nil => contradiction
  | append_singleton front c ih =>
    have digit := all c (by simp)
    have small : c.toNat - 48 < 10 := by have := isDigit_bounds digit; omega
    have last : toDigits 10 (c.toNat - 48) = [c] := by
      rw [Nat.toDigits_of_lt_base small,digitChar_of_isDigit digit]
    rw [decimal_append_singleton]
    by_cases empty : front = []
    · subst empty
      simpa [decimal] using last
    · have starts : ∀ d ∈ front.head?, d ≠ '0' := by
        intro d head
        apply noZero
        simp [Option.mem_def.mp head]
      have before := ih empty (fun d member => all d (by simp [member])) starts
      have positive := pos_of_toDigits before starts
      rw [← Nat.toDigits_append_toDigits (by omega) positive small,before,last]

theorem write_natCast (m : Nat) : write m = toDigits 10 m := digits_eq_toDigits m

theorem write_neg (positive : 0 < m) : write (-m) = '-' :: toDigits 10 m := by
  obtain ⟨k,rfl⟩ := Nat.exists_eq_add_of_lt positive
  simp only [Nat.zero_add]
  exact congrArg ('-' :: ·) (digits_eq_toDigits (k + 1))

theorem canonical_write (n : Int) : Canonical (write n) n := by
  rcases lt_trichotomy n 0 with negative | rfl | positive
  · obtain ⟨m,rfl⟩ := Int.exists_eq_neg_ofNat negative.le
    have positive : 0 < m := by omega
    have canonical := Canonical.negative (significant_toDigits positive)
    rwa [decimal_toDigits,← write_neg positive] at canonical
  · exact .zero
  · obtain ⟨m,rfl⟩ := Int.eq_ofNat_of_zero_le positive.le
    have canonical := Canonical.positive (significant_toDigits (by omega : 0 < m))
    rwa [decimal_toDigits,← write_natCast] at canonical

theorem canonical_iff_write : Canonical text n ↔ text = write n := by
  constructor
  · intro canonical
    cases canonical with
    | zero => rfl
    | positive significant => rw [write_natCast,significant.toDigits_decimal]
    | negative significant =>
      have positive := pos_of_toDigits significant.toDigits_decimal significant.noZero
      rw [write_neg positive,significant.toDigits_decimal]
  · rintro rfl
    exact canonical_write n

end Numeral

/-- The limit admits the digits of the integer; its sign does not count. -/
def DigitLimit.SufficesFor (limit : DigitLimit) (n : Int) : Prop :=
  limit.admits (toDigits 10 n.natAbs).length = true

namespace Numeral

variable {limit : DigitLimit} {digits text : Text} {n : Int}

theorem print?_eq_some_iff : print? limit n = some text ↔ limit.SufficesFor n ∧ Canonical text n := by
  rw [print?,digits_eq_toDigits,canonical_iff_write,DigitLimit.SufficesFor]
  split
  next admits => simp [admits,eq_comm]
  next refuses => simp [refuses]

theorem sufficesFor_decimal (someDigit : digits ≠ []) (all : ∀ c ∈ digits, c.isDigit = true)
    (admits : limit.admits digits.length = true) (same : n.natAbs = decimal digits) :
    limit.SufficesFor n := by
  have fewer : (toDigits 10 n.natAbs).length ≤ digits.length := by
    rw [same]
    exact (Nat.length_toDigits_le_iff (by omega) (List.length_pos_iff.mpr someDigit)).mpr
      (decimal_lt all)
  cases limit with
  | unlimited => rfl
  | atMost count =>
    have within : digits.length ≤ count := of_decide_eq_true admits
    exact decide_eq_true (fewer.trans within)

end Numeral
end Reckoner
