import Reckoner.Numeral
import Reckoner.Sign
import Reckoner.Text.Digit

/-!
# Reading numerals

A written number may have padding around it and one sign directly before its digits. The
digits may come from any scripts, and single underscores may stand between them. The limit
counts digits alone, leading zeros included.
-/

namespace Reckoner.Numeral

/-- The values of a non-empty run of digits with single underscores between them. -/
def digitRun? : Text → Option (List Nat)
  | [] => none
  | [c] => (decimalDigit? c).map ([·])
  | c :: '_' :: rest => do return (← decimalDigit? c) :: (← digitRun? rest)
  | c :: rest => do return (← decimalDigit? c) :: (← digitRun? rest)

def ofDigits (digits : List Nat) : Nat := digits.foldl (fun value digit => 10 * value + digit) 0

/-- A sign at the front, if there is one, and what follows it. -/
def splitSign : Text → Sign × Text
  | [] => (.plus, [])
  | c :: rest =>
    match Sign.ofChar? c with
    | some sign => (sign, rest)
    | none => (.plus, c :: rest)

def read? (limit : DigitLimit) (text : Text) : Option Int := do
  let (sign, run) := splitSign (text.trim isPadding)
  let digits ← digitRun? run
  if limit.admits digits.length then return sign.apply (ofDigits digits) else none

end Reckoner.Numeral
