import Reckoner.Failure

/-!
# Operators

The five operators and how tightly they bind. A smaller rank binds tighter; an opening
parenthesis has the smallest, though it is no operator.
-/

namespace Reckoner

inductive Operator where
  | add
  | sub
  | mul
  | div
  | pow
  deriving DecidableEq, Repr

namespace Operator

def ofText? : Text → Option Operator
  | ['+'] => some add
  | ['-'] => some sub
  | ['*'] => some mul
  | ['/'] => some div
  | ['^'] => some pow
  | _ => none

def text : Operator → Text
  | add => ['+']
  | sub => ['-']
  | mul => ['*']
  | div => ['/']
  | pow => ['^']

def rank : Operator → Nat
  | pow => 2
  | mul | div => 3
  | add | sub => 4

@[simp] theorem ofText?_text (op : Operator) : ofText? op.text = some op := by cases op <;> rfl

theorem ofText?_eq_some_iff {text : Text} {op : Operator} :
    ofText? text = some op ↔ text = op.text := by
  constructor
  · intro h
    unfold ofText? at h
    split at h <;> cases h <;> rfl
  · rintro rfl; exact ofText?_text op

end Operator

/-- The rank of what may stand on the operator stack, by its text. -/
def rank? (text : Text) : Option Nat :=
  if text = ['('] then some 1 else (Operator.ofText? text).map Operator.rank

def rankOf (text : Text) : Except Failure Nat :=
  match rank? text with
  | some rank => .ok rank
  | none => .error (.unrankedOperator text)

/-- The first binds strictly tighter than the second; the first is looked up first. -/
def bindsTighter (first second : Text) : Except Failure Bool := do
  return (← rankOf first) < (← rankOf second)

end Reckoner
