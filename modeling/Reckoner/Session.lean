import Reckoner.Calculation
import Reckoner.Line
import Reckoner.Settings

/-!
# Sessions

A session answers lines one by one. Only an assignment that succeeds changes it, and only in
the entry of the assigned name; a failure is an answer like any other.
-/

namespace Reckoner

/-- A line of a trace, as told before it is laid out for a terminal. -/
inductive TraceLine where
  | expression (text : Text)
  | account (line : Text)
  deriving DecidableEq, Repr

/-- The answer to one line. -/
structure Reply where
  output : Option Text := none
  failure : Option Failure := none
  terminate : Bool := false
  trace : List TraceLine := []
  deriving DecidableEq, Repr

namespace Reply

def ok (reply : Reply) : Bool := reply.failure.isNone

def fail (failure : Failure) (trace : List TraceLine) : Reply :=
  { output := some failure.message, failure := some failure, trace }

end Reply

namespace Command

def helpLines : List Text :=
  ["Evaluates integer expressions, e.g. 3 + 8 * ((4 + 3) * 2 + 1) - 6 / (2 + 1)".toList,
   "Operators: + - * / ^ and parentheses; / truncates toward zero.".toList,
   "Sign runs collapse: 2 -- 3 is 2 + 3, 2 --- 3 is 2 - 3.".toList,
   "Variables: name = value, names are Latin letters only (a, n, count).".toList,
   "Commands: /help shows this text, /exit quits.".toList]

def reply : Command → Reply
  | help => { output := some (List.intercalate ['\n'] helpLines) }
  | exit => { output := some "Bye!".toList, terminate := true }

def replyTo (text : Text) : Reply :=
  match ofText? text with
  | some command => command.reply
  | none => .fail .unknownCommand []

end Command

structure Session where
  bindings : Bindings := {}
  settings : Settings := {}
  digitLimit : DigitLimit := .standard
  deriving DecidableEq, Repr

namespace Session

def context (session : Session) : Context where
  bindings := session.bindings
  digitLimit := session.digitLimit
  resultBits := session.settings.resultBits

/-- Nothing is bound unless every check passes. -/
def assign (session : Session) (name value : Text) : Except Failure Session :=
  if Grammar.isIdentifier name then
    match Grammar.operand? value with
    | some operand => do
      let bindings ← session.bindings.set name (← session.context.valueOf operand)
      return { session with bindings }
    | none => .error .invalidAssignment
  else .error .invalidIdentifier

/-- The value of an expression, printed if the digit limit admits it. -/
def answer (session : Session) (outcome : Except Failure Int) (trace : List TraceLine) : Reply :=
  match outcome with
  | .error failure => .fail failure trace
  | .ok value =>
    match Numeral.print? session.digitLimit value with
    | some numeral => { output := some numeral, trace }
    | none => .fail .resultTooLongToPrint trace

def replyToExpression (session : Session) (text : Text) : Reply :=
  if session.settings.trace then
    let report := session.context.report text
    session.answer report.outcome (.expression text :: report.account.map .account)
  else session.answer (session.context.calculate text) []

def handle (session : Session) (line : Text) : Reply × Session :=
  match Line.ofText line with
  | .blank => ({}, session)
  | .command text => (Command.replyTo text, session)
  | .assignment name value =>
    match session.assign name value with
    | .ok next => ({}, next)
    | .error failure => (.fail failure [], session)
  | .expression text => (session.replyToExpression text, session)

end Session

/-- The replies to a run of lines and the session they leave. -/
structure Transcript where
  replies : List Reply
  session : Session

namespace Transcript

def echoed (transcript : Transcript) : List Text := transcript.replies.filterMap Reply.output

def failures (transcript : Transcript) : Nat := transcript.replies.countP (!·.ok)

def trace (transcript : Transcript) : List TraceLine := transcript.replies.flatMap Reply.trace

end Transcript

/-- Handles lines until they end or a reply terminates the session. -/
def Session.run (session : Session) : List Text → Transcript
  | [] => ⟨[], session⟩
  | line :: rest =>
    let answered := session.handle line
    if answered.1.terminate then ⟨[answered.1], answered.2⟩
    else
      let later := answered.2.run rest
      ⟨answered.1 :: later.replies, later.session⟩

end Reckoner
