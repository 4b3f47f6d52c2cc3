import Reckoner.CommandLine.Options
import Reckoner.Markup

/-!
# The program

Connects requests to the process: its arguments, its environment and its streams.
-/

namespace Reckoner

def readEnvironment : IO Environment := do
  let names := [Settings.promptVariable, Settings.traceVariable, Settings.resultBitsVariable]
  names.filterMapM fun name => do
    return (← IO.getEnv (String.ofList name)).map fun value => (name, value.toList)

def writeTo (stream : IO.FS.Stream) (text : Text) : IO Unit := do
  stream.putStr (String.ofList text)
  stream.flush

/-- Listens to the input as it is entered, each time to what is up to a line feed. -/
partial def converse (prompt : Text) (talk : Conversation) : IO Unit := do
  writeTo (← IO.getStderr) (Text.unlines (talk.trace.map Markup.render))
  writeTo (← IO.getStdout) talk.stdout
  unless talk.ended do
    let piece ← (← IO.getStdin).getLine
    unless piece.isEmpty do converse prompt (talk.delivered.listen prompt (Text.lines piece.toList))

end Reckoner

open Reckoner in
def main (arguments : List String) : IO UInt32 := do
  let environment ← readEnvironment
  match Request.ofArguments? (arguments.map String.toList) with
  | none =>
    IO.eprintln "usage: reckoner [repl [--prompt TEXT] [--trace] | eval [--trace] LINE...]"
    return 2
  | some (.converse prompt trace) =>
    let session := (Request.converse prompt trace).session environment
    let prompt := session.settings.prompt
    converse prompt (Conversation.ask prompt { session })
    return 0
  | some request =>
    let outcome := request.execute Markup.render environment []
    writeTo (← IO.getStdout) outcome.stdout
    writeTo (← IO.getStderr) outcome.stderr
    return outcome.exit.toUInt32
