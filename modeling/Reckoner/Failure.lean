import Reckoner.Text.Quoted

/-!
# Failures

Everything that can go wrong with one line of input, by cause. A cause belongs to a kind,
which has a label for reports and a default message; some causes say more than their kind.
-/

namespace Reckoner

instance decidableEqExcept {ε α : Type} [DecidableEq ε] [DecidableEq α] : DecidableEq (Except ε α)
  | .ok a, .ok b => decidable_of_iff (a = b) (by simp)
  | .error a, .error b => decidable_of_iff (a = b) (by simp)
  | .ok _, .error _ | .error _, .ok _ => isFalse (by simp)

section
variable {ε α β : Type} {outcome : Except ε α}

theorem map_eq_ok_iff {f : α → β} {b : β} :
    outcome.map f = .ok b ↔ ∃ a, outcome = .ok a ∧ f a = b := by
  cases outcome <;> simp [Except.map]

theorem map_eq_error_iff {f : α → β} {failure : ε} :
    outcome.map f = .error failure ↔ outcome = .error failure := by
  cases outcome <;> simp [Except.map]

theorem bind_eq_ok_iff {f : α → Except ε β} {b : β} :
    outcome.bind f = .ok b ↔ ∃ a, outcome = .ok a ∧ f a = .ok b := by
  cases outcome <;> simp [Except.bind]

theorem bind_eq_error_iff {f : α → Except ε β} {failure : ε} :
    outcome.bind f = .error failure ↔
      outcome = .error failure ∨ ∃ a, outcome = .ok a ∧ f a = .error failure := by
  cases outcome <;> simp [Except.bind]

end

inductive Failure.Kind where
  | unknownCommand
  | invalidIdentifier
  | invalidAssignment
  | invalidExpression
  | unknownVariable
  | arithmeticFault
  | unrankedOperator
  deriving DecidableEq, Repr

inductive Failure where
  | unknownCommand
  | invalidIdentifier
  | invalidAssignment
  /-- A character outside the alphabet of expressions. -/
  | strayCharacter
  /-- A token where the grammar has no place for it, or a missing last operand. -/
  | misplacedToken
  | unbalancedGroup
  /-- An operator found fewer than two values on the operand stack. -/
  | missingOperand
  /-- More than one value was left on the operand stack. -/
  | surplusOperand
  /-- The text of an operator token names no operation. -/
  | unknownOperator
  /-- The text of an operator token has no rank to compare. -/
  | unrankedOperator (text : Text)
  | unknownVariable
  | numberTooLong
  | divisionByZero
  | negativeExponent
  | exponentTooLarge
  | resultTooLarge
  | resultTooLongToPrint
  deriving DecidableEq, Repr

namespace Failure

def Kind.label : Kind → Text
  | unknownCommand => "unknown-command".toList
  | invalidIdentifier => "invalid-identifier".toList
  | invalidAssignment => "invalid-assignment".toList
  | invalidExpression => "invalid-expression".toList
  | unknownVariable => "unknown-variable".toList
  | arithmeticFault => "arithmetic-fault".toList
  | unrankedOperator => "unranked-operator".toList

/-- The message of a failure that has no more to say than its kind. -/
def Kind.summary : Kind → Text
  | unknownCommand => "Unknown command".toList
  | invalidIdentifier => "Invalid identifier".toList
  | invalidAssignment => "Invalid assignment".toList
  | invalidExpression => "Invalid expression".toList
  | unknownVariable => "Unknown variable".toList
  | arithmeticFault => "Arithmetic error".toList
  | unrankedOperator => "Unranked operator".toList

/-- A detail replaces the summary; an empty one is none. -/
def Kind.message (kind : Kind) (detail : Text) : Text :=
  if detail.isEmpty then kind.summary else detail

def kind : Failure → Kind
  | unknownCommand => .unknownCommand
  | invalidIdentifier => .invalidIdentifier
  | invalidAssignment => .invalidAssignment
  | strayCharacter | misplacedToken | unbalancedGroup | missingOperand | surplusOperand
  | unknownOperator => .invalidExpression
  | unrankedOperator _ => .unrankedOperator
  | unknownVariable => .unknownVariable
  | numberTooLong | divisionByZero | negativeExponent | exponentTooLarge | resultTooLarge
  | resultTooLongToPrint => .arithmeticFault

def detail : Failure → Text
  | unrankedOperator text => text.quoted
  | numberTooLong => "Number too long".toList
  | divisionByZero => "Division by zero".toList
  | negativeExponent => "Negative exponent".toList
  | exponentTooLarge => "Exponent too large".toList
  | resultTooLarge => "Result too large".toList
  | resultTooLongToPrint => "Result too long to print".toList
  | _ => []

def message (failure : Failure) : Text := failure.kind.message failure.detail

end Failure
end Reckoner
