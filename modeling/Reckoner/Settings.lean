import Reckoner.Evaluation

/-!
# Settings

What the environment may change about a session: the prompt, whether the stages of each
calculation are shown, and the bound on the size of powers.
-/

namespace Reckoner

/-- Environment variables and their texts. -/
abbrev Environment := List (Text × Text)

structure Settings where
  prompt : Text := []
  trace : Bool := false
  resultBits : Int := defaultResultBits
  deriving DecidableEq, Repr

namespace Settings

def promptVariable : Text := "INTCALC_PROMPT".toList
def traceVariable : Text := "INTCALC_TRACE".toList
def resultBitsVariable : Text := "INTCALC_MAX_RESULT_BITS".toList

/-- The words that switch something on, in any case and with blanks around. -/
def isAffirmative (text : Text) : Bool :=
  ["1".toList, "true".toList, "yes".toList, "on".toList].contains (text.strip.map Char.toLower)

/-- A bound that is no positive number gives way to the default. -/
def readResultBits (limit : DigitLimit) (text : Text) : Int :=
  match Numeral.read? limit text with
  | some bits => if 0 < bits then bits else defaultResultBits
  | none => defaultResultBits

def ofEnvironment (limit : DigitLimit) (environment : Environment) : Settings where
  prompt := (environment.lookup promptVariable).getD []
  trace := (environment.lookup traceVariable).any isAffirmative
  resultBits :=
    (environment.lookup resultBitsVariable).elim defaultResultBits (readResultBits limit)

end Settings
end Reckoner
