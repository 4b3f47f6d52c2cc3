import Reckoner.Conversation

/-!
# The command line

Two commands: `repl`, also the default, holds a session over standard input; `eval` handles
each of its operands as a line. Options override the environment, and no limit on digits is
in force.
-/

namespace Reckoner

/-- What an invocation asks for. -/
inductive Request where
  | converse (prompt : Option Text) (trace : Bool)
  | evaluate (lines : List Text) (trace : Bool)
  deriving DecidableEq, Repr

namespace Request

/-- The session that an invocation starts: options override the environment. -/
def session (environment : Environment) (request : Request) : Session :=
  let settings := Settings.ofEnvironment .unlimited environment
  match request with
  | converse prompt trace =>
    { settings := { settings with
        prompt := prompt.getD settings.prompt, trace := settings.trace || trace },
      digitLimit := .unlimited }
  | evaluate _ trace =>
    { settings := { settings with trace := settings.trace || trace }, digitLimit := .unlimited }

end Request

structure Outcome where
  exit : Nat
  stdout : Text
  stderr : Text
  deriving DecidableEq, Repr

namespace Transcript

def summary (transcript : Transcript) : List Text :=
  if transcript.failures = 0 then []
  else [Numeral.digits transcript.failures ++ " line(s) failed".toList]

end Transcript

/-- The effect of an invocation on its streams, given how a trace is laid out. -/
def Request.execute (render : TraceLine → Text) (environment : Environment) (stdin : Text)
    (request : Request) : Outcome :=
  let session := request.session environment
  match request with
  | converse _ _ =>
    let talk := Conversation.read session.settings.prompt { session } stdin.lines
    { exit := 0
      stdout := talk.stdout
      stderr := Text.unlines (talk.trace.map render) }
  | evaluate lines _ =>
    let transcript := session.run lines
    { exit := if transcript.failures = 0 then 0 else 1
      stdout := Text.unlines transcript.echoed
      stderr := Text.unlines (transcript.trace.map render ++ transcript.summary) }

end Reckoner
