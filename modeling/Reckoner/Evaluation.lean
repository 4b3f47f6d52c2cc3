import Reckoner.Bindings
import Reckoner.Numeral.Reader
import Reckoner.Operator.Arithmetic

/-!
# Evaluation

Tokens in postfix order act on a stack of integers: an operand puts its value on top, any
other token replaces the two topmost values by what its operator makes of them.
-/

namespace Reckoner

/-- The bound on the size of powers, `2 ^ 20` bits, unless a setting changes it. -/
def defaultResultBits : Int := 0x100000

/-- All that the value of an expression depends on besides its text. -/
structure Context where
  bindings : Bindings := {}
  digitLimit : DigitLimit := .standard
  resultBits : Int := defaultResultBits

namespace Context

/-- The value of a token without its sign. Whatever is no numeral is looked up by name. -/
def magnitude (context : Context) (token : Token) : Except Failure Int :=
  if token.kind = .integer then
    match Numeral.read? context.digitLimit token.bare with
    | some n => .ok n
    | none => .error .numberTooLong
  else
    match context.bindings.get? token.bare with
    | some n => .ok n
    | none => .error .unknownVariable

def valueOf (context : Context) (token : Token) : Except Failure Int :=
  (context.magnitude token).map token.sign.apply

def operate (context : Context) (token : Token) : List Int → Except Failure (List Int)
  | right :: left :: rest =>
    (applyText context.resultBits token.text left right).map (· :: rest)
  | _ => .error .missingOperand

def step (context : Context) (stack : List Int) (token : Token) : Except Failure (List Int) :=
  if token.isOperand then (context.valueOf token).map (· :: stack)
  else context.operate token stack

def run (context : Context) (stack : List Int) (tokens : List Token) :
    Except Failure (List Int) :=
  tokens.foldlM context.step stack

/-- The one value that a run must leave. -/
def onlyValue : List Int → Except Failure Int
  | [value] => .ok value
  | [] => .error .missingOperand
  | _ => .error .surplusOperand

def evaluate (context : Context) (tokens : List Token) : Except Failure Int :=
  (context.run [] tokens).bind onlyValue

theorem run_append (context : Context) (stack : List Int) (first second : List Token) :
    context.run stack (first ++ second) =
      (context.run stack first).bind (context.run · second) := by
  simp [run,List.foldlM_append,bind]

end Context
end Reckoner
