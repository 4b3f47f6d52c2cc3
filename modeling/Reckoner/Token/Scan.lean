import Reckoner.Failure
import Reckoner.Token

/-!
# Tokens of a text

Sign runs are collapsed first. The words of the result are then its maximal groups of
adjacent letters or of adjacent digits, every other character standing alone; blanks only
part words. A sign that opens the expression directly before an operand belongs to it.
-/

namespace Reckoner.Token

def isOperatorChar (c : Char) : Bool := "+-*/^".toList.contains c

/-- The kind of the word that a character begins; blanks begin none. -/
def kindOf? (c : Char) : Option Kind :=
  if c.isAlpha then some .identifier
  else if c.isDigit then some .integer
  else if c = '(' then some .lparen
  else if c = ')' then some .rparen
  else if isOperatorChar c then some .operator
  else none

/-- The alphabet of expressions. -/
def isLexical (c : Char) : Bool := (kindOf? c).isSome || isBlank c

/-- Two adjacent characters that belong to one word. -/
def joins (a b : Char) : Bool := (a.isAlpha && b.isAlpha) || (a.isDigit && b.isDigit)

/-- A word has the kind that its first character begins. -/
def ofWord? (word : Text) : Option Token := do
  return ⟨← kindOf? (← word.head?), word⟩

/-- The tokens of a text whose sign runs are collapsed already. -/
def scan (text : Text) : List Token := (text.splitBy joins).filterMap ofWord?

def isSignOperator (token : Token) : Bool :=
  token.kind = .operator && (token.text = ['+'] || token.text = ['-'])

/-- Gives an operand at the front the sign before it. -/
def attachSign : List Token → List Token
  | first :: second :: rest =>
    if first.isSignOperator && second.isOperand then
      ⟨second.kind, first.text ++ second.text⟩ :: rest
    else first :: second :: rest
  | tokens => tokens

def tokenize (text : Text) : Except Failure (List Token) :=
  if text.all isLexical then .ok (attachSign (scan (Sign.collapse text)))
  else .error .strayCharacter

end Reckoner.Token
