import Reckoner.Main
import Reckoner.Text.Blank
import Reckoner.Proofs.Token.Words
import Reckoner.Proofs.Token.Reading
import Reckoner.Proofs.Sign.Run
import Reckoner.Proofs.Numeral.Decimal
import Reckoner.Proofs.Grammar.Layering
import Reckoner.Proofs.Grammar.Nesting
import Reckoner.Proofs.Postfix.Conversion
import Reckoner.Proofs.Postfix.Balance
import Reckoner.Proofs.Tree.Postorder
import Reckoner.Proofs.Evaluation.Height
import Reckoner.Proofs.Evaluation.Meaning
import Reckoner.Proofs.Calculation.Outcome
import Reckoner.Proofs.Session.Containment
import Reckoner.Proofs.Rendering.Brackets
import Reckoner.Proofs.Rendering.Layout
import Reckoner.Proofs.Evaluation.Limits
import Reckoner.Proofs.Session.Limits
import Reckoner.Proofs.Bindings.Names
import Reckoner.Proofs.Session.Table
import Reckoner.Proofs.Sign.Collapse
import Reckoner.Proofs.Token.Image
import Reckoner.Proofs.Calculation.Respelling
import Reckoner.Proofs.Calculation.Grouping
import Reckoner.Proofs.Numeral.Canonical
import Reckoner.Proofs.Line.Operand
import Reckoner.Proofs.Session.Readback
import Reckoner.Proofs.Session.Printable
import Reckoner.Proofs.Calculation.Agreement
import Reckoner.Proofs.Session.Independence
import Reckoner.Proofs.Postfix.Conservation
import Reckoner.Proofs.Session.Transcript
import Reckoner.Proofs.Session.Conversation
import Reckoner.Proofs.CommandLine.FrontEnds
import Reckoner.Proofs.Double.Logarithm
import Reckoner.Proofs.Double.Log2
import Reckoner.Proofs.Evaluation.PowerSize
import Reckoner.Proofs.Evaluation.Forest
import Reckoner.Proofs.Grammar.Repair
import Reckoner.Proofs.Sign.Normal
import Reckoner.Proofs.Token.Placement
import Reckoner.Proofs.Postfix.Operands
import Reckoner.Proofs.Token.Substitution
import Reckoner.Proofs.Calculation.Substitution
import Reckoner.Proofs.Grammar.Operand
import Reckoner.Proofs.Session.RightSide
import Reckoner.Proofs.Session.OperandPaths
import Reckoner.Proofs.Session.Loop
import Reckoner.Proofs.Calculation.Account
import Reckoner.Proofs.Calculation.PostfixText
import Reckoner.Proofs.Numeral.Spelling
import Reckoner.Proofs.Postfix.Groups
import Reckoner.Proofs.Postfix.Order
