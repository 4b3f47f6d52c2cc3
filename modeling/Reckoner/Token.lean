import Reckoner.Sign

/-!
# Tokens

The words of an expression. Only an operand may carry signs of its own, in front of its
name or digits.
-/

namespace Reckoner

inductive Token.Kind where
  | identifier
  | integer
  | operator
  | lparen
  | rparen
  deriving DecidableEq, Repr

structure Token where
  kind : Token.Kind
  text : Text
  deriving DecidableEq, Repr

namespace Token

def isOperand (token : Token) : Bool :=
  match token.kind with
  | .identifier | .integer => true
  | .operator | .lparen | .rparen => false

theorem isOperand_iff {token : Token} :
    token.isOperand = true ↔ token.kind = .identifier ∨ token.kind = .integer := by
  rw [isOperand]
  cases token.kind <;> simp

/-- The sign that an operand carries; a token without one is positive. -/
def sign (token : Token) : Sign :=
  if token.isOperand && token.text.head? == some '-' then .minus else .plus

/-- The text of an operand without the signs in front of it. -/
def bare (token : Token) : Text :=
  if token.isOperand then token.text.dropWhile isSign else token.text

/-- The texts of tokens, parted by single spaces. -/
def spell (tokens : List Token) : Text := Text.spaced (tokens.map Token.text)

end Token
end Reckoner
