import Reckoner.CommandLine

/-!
# Command-line options

Options may stand anywhere among the operands of a command, and a lone `--` ends them. A
prompt takes a text, `--prompt TEXT`, `--prompt=TEXT`, `-p TEXT` or `-pTEXT`; tracing takes
none, `--trace` or `-t`. One-letter options may share a dash. Only the program reads its arguments
in this way; what a request does is told apart from it.
-/

namespace Reckoner

/-- What an argument after the command is. -/
inductive Argument where
  | operand
  | close
  | flags (trace : Bool)
  /-- A prompt, whose text is the next argument unless it is attached. -/
  | prompt (trace : Bool) (attached : Option Text)
  | unknown
  deriving DecidableEq, Repr

namespace Argument

/-- One-letter options in a row; the first that takes a text takes all that follows. -/
def ofLetters (trace : Bool) : Text → Argument
  | [] => flags trace
  | ['p'] => prompt trace none
  | 'p' :: attached => prompt trace (some attached)
  | 't' :: rest => ofLetters true rest
  | _ => unknown

def after? (front text : Text) : Option Text :=
  if front.isPrefixOf text then some (text.drop front.length) else none

def ofText (text : Text) : Argument :=
  match after? "--".toList text, text with
  | some [], _ => close
  | some long, _ =>
    if long = "trace".toList then flags true
    else if long = "prompt".toList then prompt false none
    else
      match after? "prompt=".toList long with
      | some attached => prompt false (some attached)
      | none => unknown
  | none, '-' :: letter :: rest => ofLetters false (letter :: rest)
  | none, _ => operand

end Argument

structure Options where
  prompt : Option Text := none
  trace : Bool := false
  operands : List Text := []
  deriving DecidableEq, Repr

namespace Options

/-- Reads arguments in order; of two prompts the later counts. There are no options for an
unknown one, for a prompt without its text, or where prompts are not taken. -/
def read (takesPrompt : Bool) (options : Options) : List Text → Option Options
  | [] => some options
  | argument :: rest =>
    match Argument.ofText argument with
    | .operand =>
      read takesPrompt { options with operands := options.operands ++ [argument] } rest
    | .close => some { options with operands := options.operands ++ rest }
    | .flags trace => read takesPrompt { options with trace := options.trace || trace } rest
    | .prompt trace attached =>
      if takesPrompt then
        match attached, rest with
        | some text, rest =>
          read takesPrompt { options with prompt := text, trace := options.trace || trace } rest
        | none, text :: rest =>
          read takesPrompt { options with prompt := text, trace := options.trace || trace } rest
        | none, [] => none
      else none
    | .unknown => none

end Options

namespace Request

/-- A conversation takes no operands, an evaluation at least one and no prompt. -/
def ofCommand? (command : Text) (arguments : List Text) : Option Request :=
  if command = "repl".toList then do
    let options ← Options.read true {} arguments
    if options.operands.isEmpty then some (converse options.prompt options.trace) else none
  else if command = "eval".toList then do
    let options ← Options.read false {} arguments
    if options.operands.isEmpty then none else some (evaluate options.operands options.trace)
  else none

/-- There is no request in arguments that are misused. -/
def ofArguments? (arguments : List Text) : Option Request :=
  match if arguments.head? = some "--".toList then arguments.tail else arguments with
  | [] => some (converse none false)
  | command :: rest => ofCommand? command rest

end Request
end Reckoner
