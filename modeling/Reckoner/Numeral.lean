import Reckoner.Text

/-!
# Decimal numerals

Writing integers in decimal, and the limit on how many digits a number may have when it
is read or printed. `Numeral.block` halves the number of digits at each level, so writing a
number costs a few divisions of its size and not one for every digit.
-/

namespace Reckoner

/-- How many digits a number may have in text. -/
inductive DigitLimit where
  | unlimited
  | atMost (digits : Nat)
  deriving DecidableEq, Repr

namespace DigitLimit

/-- Zero stands for no limit. -/
def ofNat : Nat → DigitLimit
  | 0 => unlimited
  | digits + 1 => atMost (digits + 1)

def admits : DigitLimit → Nat → Bool
  | unlimited, _ => true
  | atMost digits, count => count ≤ digits

def standard : DigitLimit := atMost 4300

end DigitLimit

namespace Numeral

/-- The least number of more than `2 ^ level` digits. -/
def radix (level : Nat) : Nat := Nat.pow 10 (1 <<< level)

/-- The last `2 ^ level` digits of a number, leading zeros included. -/
def block : Nat → Nat → Text
  | 0, n => [Nat.digitChar (n % 10)]
  | level + 1, n => block level (n / radix level) ++ block level (n % radix level)

/-- A level at which a block holds every digit of the number. -/
def level (n : Nat) : Nat := Nat.log2 (Nat.log2 n / 3 + 1) + 1

/-- The digits of a natural number, without leading zeros. -/
def digits (n : Nat) : Text :=
  match (block (level n) n).dropWhile (· = '0') with
  | [] => ['0']
  | ds => ds

def write : Int → Text
  | .ofNat n => digits n
  | .negSucc n => '-' :: digits (n + 1)

/-- The numeral of an integer whose digits the limit admits. -/
def print? (limit : DigitLimit) (n : Int) : Option Text :=
  if limit.admits (digits n.natAbs).length then some (write n) else none

theorem radix_pos (level : Nat) : 0 < radix level := Nat.pow_pos (by decide)

theorem radix_succ (level : Nat) : radix (level + 1) = radix level * radix level := by
  simp only [radix,Nat.pow_eq,Nat.one_shiftLeft]
  rw [Nat.pow_succ,Nat.mul_two,Nat.pow_add]

theorem lt_radix_level (n : Nat) : n < radix (level n) := by
  have bits : n < 2 ^ (3 * (n.log2 / 3 + 1)) :=
    Nat.lt_of_lt_of_le Nat.lt_log2_self (Nat.pow_le_pow_right (by decide) (by omega))
  have count : n.log2 / 3 + 1 < 2 ^ level n := Nat.lt_log2_self
  calc n < 8 ^ (n.log2 / 3 + 1) := by rwa [Nat.pow_mul] at bits
    _ ≤ 10 ^ (n.log2 / 3 + 1) := Nat.pow_le_pow_left (by decide) _
    _ ≤ 10 ^ 2 ^ level n := Nat.pow_le_pow_right (by decide) (Nat.le_of_lt count)
    _ = radix (level n) := by rw [radix,Nat.pow_eq,Nat.one_shiftLeft]

theorem toDigits_append_block {front : Nat} (positive : 0 < front) (level : Nat) {rest : Nat}
    (bound : rest < radix level) :
    Nat.toDigits 10 front ++ block level rest = Nat.toDigits 10 (radix level * front + rest) := by
  induction level generalizing front rest with
  | zero =>
    have small : rest < 10 := bound
    rw [block,Nat.mod_eq_of_lt small,← Nat.toDigits_of_lt_base small]
    exact Nat.toDigits_append_toDigits (by decide) positive small
  | succ level ih =>
    have unit := radix_pos level
    rw [radix_succ] at bound ⊢
    have more : 0 < radix level * front + rest / radix level :=
      Nat.add_pos_left (Nat.mul_pos unit positive) _
    rw [block,← List.append_assoc,ih positive (Nat.div_lt_of_lt_mul bound),
      ih more (Nat.mod_lt _ unit),Nat.mul_add,Nat.add_assoc,Nat.div_add_mod,Nat.mul_assoc]

theorem dropWhile_block {level n : Nat} (bound : n < radix level) :
    (block level n).dropWhile (· = '0') = if n = 0 then [] else Nat.toDigits 10 n := by
  induction level generalizing n with
  | zero =>
    have small : n < 10 := bound
    rw [block,Nat.mod_eq_of_lt small,Nat.toDigits_of_lt_base small]
    revert small n; decide
  | succ level ih =>
    have unit := radix_pos level
    rw [radix_succ] at bound
    rw [block,List.dropWhile_append,ih (Nat.div_lt_of_lt_mul bound)]
    by_cases low : n < radix level
    · simp [Nat.div_eq_of_lt low,Nat.mod_eq_of_lt low,ih low]
    · have positive : 0 < n / radix level := Nat.div_pos (Nat.le_of_not_lt low) unit
      have nonzero : n ≠ 0 := by rintro rfl; simp at positive
      rw [if_neg (Nat.ne_of_gt positive),if_neg (by simp [Nat.toDigits_ne_nil]),if_neg nonzero,
        toDigits_append_block positive level (Nat.mod_lt _ unit),Nat.div_add_mod]

/-- Halving gives the same digits as dividing by ten repeatedly. -/
theorem digits_eq_toDigits (n : Nat) : digits n = Nat.toDigits 10 n := by
  rw [digits,dropWhile_block (lt_radix_level n)]
  split
  next none => split at none <;> simp_all [Nat.toDigits_ne_nil]
  next some => split at some <;> simp_all

end Numeral
end Reckoner
