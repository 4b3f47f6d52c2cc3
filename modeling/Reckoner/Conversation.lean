import Reckoner.Session
import Reckoner.Text.Lines

/-!
# Conversations

A session at a terminal: the prompt is shown before each line is read, the line is answered, and
the next is read unless the answer ends the session or the input is at its end.
-/

namespace Reckoner

def Reply.echo (reply : Reply) : Text := Text.unlines reply.output.toList

/-- What was said so far, and what this wrote to standard output. -/
structure Conversation where
  session : Session
  exchanges : List (Text × Reply) := []
  stdout : Text := []
  ended : Bool := false
  deriving DecidableEq, Repr

namespace Conversation

def replies (talk : Conversation) : List Reply := talk.exchanges.map Prod.snd

def trace (talk : Conversation) : List TraceLine := talk.replies.flatMap Reply.trace

def ask (prompt : Text) (talk : Conversation) : Conversation :=
  { talk with stdout := talk.stdout ++ prompt }

def hear (talk : Conversation) (line : Text) : Conversation :=
  let answered := talk.session.handle line
  { session := answered.2
    exchanges := talk.exchanges ++ [(line, answered.1)]
    stdout := talk.stdout ++ answered.1.echo
    ended := answered.1.terminate }

/-- Answers the lines that there are, of which the first was asked for, and asks for the next one
unless the session has ended. -/
def listen (prompt : Text) (talk : Conversation) : List Text → Conversation
  | [] => talk
  | line :: rest =>
    let heard := talk.hear line
    if heard.ended then heard else (heard.ask prompt).listen prompt rest

/-- What is left once all that was said is written out. -/
def delivered (talk : Conversation) : Conversation := { talk with exchanges := [], stdout := [] }

/-- The reading loop: asks, reads and answers, up to the end of the session or of the input. -/
def read (prompt : Text) (talk : Conversation) (lines : List Text) : Conversation :=
  (talk.ask prompt).listen prompt lines

end Conversation
end Reckoner
