import Reckoner.Operator
import Reckoner.Grammar
import Reckoner.Tree

/-!
# Derivations

Two grammars of expressions. `Derivable` knows operators and groups only; `Parses` has one
layer for each rank and gives the tree in which operators of one rank group to the left.
-/

namespace Reckoner.Grammar

inductive Part where
  | expression
  | term
  deriving DecidableEq, Repr

/-- `expression := term (operator term)*`, `term := operand | '(' expression ')'`. -/
inductive Derivable : Part → List Token → Prop
  | operand (anOperand : token.isOperand = true) : Derivable .term [token]
  | group (opens : left.kind = .lparen) (closes : right.kind = .rparen)
      (inner : Derivable .expression tokens) : Derivable .term (left :: tokens ++ [right])
  | single (term : Derivable .term tokens) : Derivable .expression tokens
  | chain (first : Derivable .expression front) (anOperator : op.kind = .operator)
      (last : Derivable .term back) : Derivable .expression (front ++ op :: back)

inductive Layer where
  | sum
  | product
  | power
  | atom
  deriving DecidableEq, Repr

def Layer.tighter : Layer → Layer
  | sum => product
  | product => power
  | power | atom => atom

/-- The layer whose chains an operator links. -/
def Layer.ofOperator : Operator → Layer
  | .add | .sub => sum
  | .mul | .div => product
  | .pow => power

/-- The tokens derive from the layer, and the tree is their tree. -/
inductive Parses : Layer → List Token → Tree → Prop
  | operand (anOperand : token.isOperand = true) : Parses .atom [token] (.leaf token)
  | group (opens : left.kind = .lparen) (closes : right.kind = .rparen)
      (inner : Parses .sum tokens tree) : Parses .atom (left :: tokens ++ [right]) tree
  | lift (loose : layer ≠ .atom) (tight : Parses layer.tighter tokens tree) :
      Parses layer tokens tree
  | chain (anOperator : token.kind = .operator) (names : Operator.ofText? token.text = some op)
      (first : Parses (.ofOperator op) front left)
      (last : Parses (Layer.ofOperator op).tighter back right) :
      Parses (.ofOperator op) (front ++ token :: back) (.node token left right)

end Reckoner.Grammar
