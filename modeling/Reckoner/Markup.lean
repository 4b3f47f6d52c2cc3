import Reckoner.Session

/-!
# Markup

Text with style tags in brackets, such as `[dim]`. A backslash before a tag takes its meaning
away; backslashes before a tag pair up, each pair standing for one. A bracket that opens no
tag stands for itself, and loses the backslash directly before it if there is one.
`Markup.plain` is what a reader sees of a marked-up text, with no styles.
-/

namespace Reckoner.Markup

def startsTag (c : Char) : Bool :=
  ('a' ≤ c && c ≤ 'z') || c = '#' || c = '/' || c = '@'

def isBracket (c : Char) : Bool := c = '[' || c = ']'

/-- What follows an opening bracket makes it a tag, closed before another bracket opens. -/
def opensTag : Text → Bool
  | [] => false
  | c :: rest => startsTag c && rest.find? isBracket == some ']'

def slashes (count : Nat) : Text := List.replicate count '\\'

/-- Escapes what follows a run of backslashes, which is not written yet. -/
def escapeFrom (run : Nat) : Text → Text
  | [] => slashes (if run = 1 then 2 else run)
  | c :: rest =>
    if c = '\\' then escapeFrom (run + 1) rest
    else if c = '[' && opensTag rest then slashes (2 * run + 1) ++ c :: escapeFrom 0 rest
    else slashes run ++ c :: escapeFrom 0 rest

/-- Takes the meaning of all tags in a text away. One backslash at the end is doubled, lest it
escape a tag after the text; more of them are left as they are. -/
def escape (text : Text) : Text := escapeFrom 0 text

/-- Reads on inside a tag, which is not shown, or after a run of backslashes. -/
def plainFrom : Bool → Nat → Text → Text
  | _, run, [] => slashes run
  | true, run, c :: rest => plainFrom (c != ']') run rest
  | false, run, c :: rest =>
    if c = '\\' then plainFrom false (run + 1) rest
    else if c = '[' then
      if opensTag rest then
        slashes (run / 2) ++
          if run % 2 = 1 then c :: plainFrom false 0 rest else plainFrom true 0 rest
      else slashes (run - 1) ++ c :: plainFrom false 0 rest
    else slashes run ++ c :: plainFrom false 0 rest

def plain (text : Text) : Text := plainFrom false 0 text

def dim (text : Text) : Text := "[dim]".toList ++ text ++ "[/dim]".toList

/-- A line of a trace without its styles. The brackets of an expression are not to be taken for
tags; an account holds none. -/
def render : TraceLine → Text
  | .expression text => plain (dim (escape ("> ".toList ++ text)))
  | .account line => line

end Reckoner.Markup
