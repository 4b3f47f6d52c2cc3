import Reckoner.Token.Scan

/-!
# Grammar checks

An expression alternates operands and operators, with opening parentheses only where an
operand may start and closing ones only after an operand or another closing one. Whether
the parentheses balance is left to the conversion to postfix order.
-/

namespace Reckoner.Grammar

/-- What an expression may go on with. -/
inductive Due where
  | operand
  | operator
  deriving DecidableEq, Repr

def Due.after : Due → Token.Kind → Option Due
  | operand, .lparen => some operand
  | operand, .identifier | operand, .integer => some operator
  | operator, .rparen => some operator
  | operator, .operator => some operand
  | operand, .operator | operand, .rparen => none
  | operator, .lparen | operator, .identifier | operator, .integer => none

/-- Each token may stand where it stands, and no operand is missing at the end. -/
def alternates : Due → List Token → Bool
  | due, [] => due = .operator
  | due, token :: rest =>
    match due.after token.kind with
    | some next => alternates next rest
    | none => false

def isExpression (text : Text) : Bool :=
  match Token.tokenize text with
  | .ok tokens => alternates .operand tokens
  | .error _ => false

/-- The operand that a text consists of, which may have signs in front. -/
def operand? (text : Text) : Option Token :=
  match Token.tokenize text with
  | .ok [token] => if token.isOperand then some token else none
  | _ => none

def isOperand (text : Text) : Bool := (operand? text).isSome

def isIdentifier (text : Text) : Bool := !text.isEmpty && text.all Char.isAlpha

end Reckoner.Grammar
