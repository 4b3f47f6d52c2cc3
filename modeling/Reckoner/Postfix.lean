import Reckoner.Operator
import Reckoner.Token

/-!
# Postfix order

Operands go straight to the output; an operator waits until one arrives that does not bind
tighter, its group closes or the tokens end. So operators of one rank group to the left,
the power operator included, and parentheses vanish.
-/

namespace Reckoner

/-- A conversion under way: the tokens written so far, newest first, and the operators and
open parentheses that wait, innermost first. -/
structure Yard where
  output : List Token := []
  waiting : List Token := []
  deriving DecidableEq, Repr

namespace Yard

def written (yard : Yard) : List Token := yard.output.reverse

/-- An operator writes out those that wait in its group and do not bind less tightly. -/
def enter (op : Token) (output : List Token) : List Token → Except Failure Yard
  | [] => .ok ⟨output, [op]⟩
  | top :: below =>
    if top.kind = .lparen then .ok ⟨output, op :: top :: below⟩
    else
      match bindsTighter op.text top.text with
      | .error failure => .error failure
      | .ok true => .ok ⟨output, op :: top :: below⟩
      | .ok false => enter op (top :: output) below

/-- A closing parenthesis writes out all that waits in its group. -/
def close (output : List Token) : List Token → Except Failure Yard
  | [] => .error .unbalancedGroup
  | top :: below =>
    if top.kind = .lparen then .ok ⟨output, below⟩ else close (top :: output) below

def accept (yard : Yard) (token : Token) : Except Failure Yard :=
  match token.kind with
  | .identifier | .integer => .ok { yard with output := token :: yard.output }
  | .lparen => .ok { yard with waiting := token :: yard.waiting }
  | .rparen => close yard.output yard.waiting
  | .operator => enter token yard.output yard.waiting

def acceptAll (yard : Yard) (tokens : List Token) : Except Failure Yard :=
  tokens.foldlM accept yard

/-- At the end the rest is written out, unless a group is still open. -/
def finish (yard : Yard) : Except Failure (List Token) :=
  if yard.waiting.any (·.kind = .lparen) then .error .unbalancedGroup
  else .ok (yard.written ++ yard.waiting)

theorem acceptAll_append (yard : Yard) (first second : List Token) :
    yard.acceptAll (first ++ second) = (yard.acceptAll first).bind (acceptAll · second) := by
  simp [acceptAll,List.foldlM_append,bind]

end Yard

def toPostfix (tokens : List Token) : Except Failure (List Token) :=
  (Yard.acceptAll {} tokens).bind Yard.finish

end Reckoner
