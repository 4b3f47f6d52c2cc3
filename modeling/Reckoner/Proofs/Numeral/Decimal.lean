import Mathlib.Data.Nat.Digits.Defs
import Reckoner.Numeral.Reader
import Reckoner.Proofs.Token.Words

/-!
# Decimal literals

A run of decimal digits is read as the number that it denotes, and it is refused only where it
has more digits than the limit admits.
-/

namespace Reckoner.Numeral

/-- The number that digits denote, the last one counting ones. -/
def decimal (digits : Text) : Nat := Nat.ofDigits 10 (digits.reverse.map fun c => c.toNat - 48)

theorem ofDigits_eq (digits : List Nat) : ofDigits digits = Nat.ofDigits 10 digits.reverse := by
  rw [Nat.ofDigits_eq_foldr,List.foldr_reverse,ofDigits]
  simp only [Nat.cast_id,Nat.add_comm]

theorem isPadding_of_isDigit {c : Char} (digit : c.isDigit = true) : isPadding c = false := by
  by_contra padding
  have blank := isBlank_of_isPadding (by simpa using padding)
  simp [isDigit_of_isBlank blank] at digit

theorem splitSign_of_isDigit {c : Char} (digit : c.isDigit = true) (rest : Text) :
    splitSign (c :: rest) = (.plus,c :: rest) := by
  have unsigned : Sign.ofChar? c = none := by
    by_contra signed
    obtain ⟨sign,aSign⟩ := Option.ne_none_iff_exists'.mp signed
    rw [Sign.eq_toChar_of_ofChar? aSign] at digit
    cases sign <;> cases digit
  simp [splitSign,unsigned]

theorem digitRun?_of_isDigit {digits : Text} (someDigit : digits ≠ [])
    (all : ∀ c ∈ digits, c.isDigit = true) :
    digitRun? digits = some (digits.map fun c => c.toNat - 48) := by
  induction digits with
  | nil => contradiction
  | cons c rest ih =>
    have value := decimalDigit?_of_isDigit (all c List.mem_cons_self)
    cases rest with
    | nil => simp [digitRun?,value]
    | cons d rest =>
      have plain : d ≠ '_' := by
        rintro rfl
        cases all '_' (by simp)
      have later := ih (by simp) fun e member => all e (List.mem_cons_of_mem c member)
      rw [digitRun?]
      · simp [value,later]
      · simp
      · intro _ same; exact plain (List.head_eq_of_cons_eq same)

theorem read?_digits (limit : DigitLimit) {digits : Text} (someDigit : digits ≠ [])
    (all : ∀ c ∈ digits, c.isDigit = true) :
    read? limit digits = if limit.admits digits.length then some (decimal digits : Int) else none := by
  obtain ⟨c,rest,rfl⟩ := List.exists_cons_of_ne_nil someDigit
  have inner := fun d member => isPadding_of_isDigit (all d member)
  have whole : Text.trim isPadding (c :: rest) = c :: rest :=
    Text.trim_eq_self (fun d head => inner d (List.mem_of_mem_head? head))
      (fun d last => inner d (List.mem_of_mem_getLast? last))
  simp only [read?,whole,splitSign_of_isDigit (all c List.mem_cons_self),
    digitRun?_of_isDigit someDigit all,ofDigits_eq,decimal]
  simp [Sign.apply,List.map_reverse]

end Reckoner.Numeral
