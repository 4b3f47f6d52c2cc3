import Reckoner.Evaluation
import Reckoner.Postfix

/-!
# Calculations

From the text of an expression to its value, and the account of the stages in between. The
account shows the stages only of a text that is an expression, and ends with the kind of
failure if the calculation fails.
-/

namespace Reckoner

/-- What an expression becomes on the way to its value. -/
structure Stages where
  normalized : Text
  tokens : List Token
  ordered : List Token
  deriving DecidableEq, Repr

namespace Stages

def ofText (text : Text) : Except Failure Stages := do
  let tokens ← Token.tokenize text
  if Grammar.alternates .operand tokens then
    return ⟨Sign.collapse text, tokens, ← toPostfix tokens⟩
  else throw .misplacedToken

def lines (stages : Stages) : List Text :=
  ["  normalized: ".toList ++ stages.normalized.strip,
   "  tokens: ".toList ++ Token.spell stages.tokens,
   "  postfix: ".toList ++ Token.spell stages.ordered]

end Stages

def Failure.line (failure : Failure) : Text := "  failed: ".toList ++ failure.kind.label

/-- The outcome of a calculation with the account of its stages. -/
structure Report where
  outcome : Except Failure Int
  account : List Text
  deriving DecidableEq

namespace Context

def calculate (context : Context) (text : Text) : Except Failure Int := do
  context.evaluate (← Stages.ofText text).ordered

def report (context : Context) (text : Text) : Report :=
  match Stages.ofText text with
  | .error failure => ⟨.error failure, [failure.line]⟩
  | .ok stages =>
    match context.evaluate stages.ordered with
    | .error failure => ⟨.error failure, stages.lines ++ [failure.line]⟩
    | .ok value => ⟨.ok value, stages.lines⟩

end Context
end Reckoner
