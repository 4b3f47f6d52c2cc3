import Reckoner.Proofs.Session.Limits
import Reckoner.Proofs.Session.Table

/-!
# Transcripts

A run handles lines up to the first that ends the session, and these are the lines that strip to
one command. The prompt, which only a conversation shows, has no part in it.
-/

namespace Reckoner

variable {session : Session} {line prompt : Text} {lines : List Text}

/-- The line ends a session. -/
def Line.isLast (line : Text) : Bool := line.strip = "/exit".toList

theorem Command.replyTo_terminate (text : Text) :
    (replyTo text).terminate = decide (text = "/exit".toList) := by
  rw [replyTo,ofText?]
  split_ifs with help last
  · rw [help]
    rfl
  · rw [last]
    rfl
  · rw [decide_eq_false last]
    rfl

namespace Session

open Line

/-- The lines that a session gets to: the first that ends it is the last of them. -/
def heard (lines : List Text) : List Text :=
  lines.takeWhile (!isLast ·) ++ (lines.dropWhile (!isLast ·)).take 1

theorem heard_cons (line : Text) (rest : List Text) :
    heard (line :: rest) = line :: if isLast line then [] else heard rest := by
  cases last : isLast line <;> simp [heard,last]

theorem answer_terminate (session : Session) (outcome : Except Failure Int) (trace : List TraceLine) :
    (session.answer outcome trace).terminate = false := by
  cases outcome with
  | error => rfl
  | ok value => cases prints : Numeral.print? session.digitLimit value <;> simp [answer,prints,Reply.fail]

/-- Only one command terminates a session, whatever the state of the session is. -/
theorem handle_terminate (session : Session) (line : Text) :
    (session.handle line).1.terminate = isLast line := by
  cases stripped : line.strip with
  | nil =>
    have blank : Line.ofText line = .blank := by rw [Line.ofText,stripped]
    simp [handle,blank,isLast,stripped]
  | cons first rest =>
    by_cases slash : first = '/'
    · have command : Line.ofText line = .command (first :: rest) := by simp [Line.ofText,stripped,slash]
      rw [handle,command,isLast,stripped]
      exact Command.replyTo_terminate _
    · have other : isLast line = false := by simp [isLast,stripped,slash]
      rw [other]
      have visible : line.strip ≠ [] := by simp [stripped]
      have form := Line.ofText_eq visible (by simpa [stripped] using slash)
      split at form
      · rw [handle_assignment form]
        cases session.context.rebind _ _ <;> rfl
      · rw [handle_expression form]
        obtain ⟨trace,answers⟩ := session.replyToExpression_eq line.strip
        rw [answers,answer_terminate]

theorem run_eq (session : Session) (lines : List Text) :
    session.run lines =
      ⟨(session.answers (heard lines)).map Prod.fst,session.after (heard lines)⟩ := by
  induction lines generalizing session with
  | nil => rfl
  | cons line rest ih =>
    simp only [run,handle_terminate,heard_cons]
    split
    · rfl
    · rw [ih]
      rfl

theorem length_answers (session : Session) (lines : List Text) :
    (session.answers lines).length = lines.length := by
  induction lines generalizing session with
  | nil => rfl
  | cons line lines ih => rw [answers,List.length_cons,ih,List.length_cons]

def prompted (session : Session) (prompt : Text) : Session :=
  { session with settings := { session.settings with prompt } }

theorem handle_prompted (session : Session) (prompt line : Text) :
    (session.prompted prompt).handle line =
      ((session.handle line).1,(session.handle line).2.prompted prompt) := by
  cases form : Line.ofText line with
  | blank | command => simp only [handle,form]
  | expression text =>
    simp only [handle,form]
    rfl
  | assignment name value =>
    have context : (session.prompted prompt).context = session.context := rfl
    rw [handle_assignment form,handle_assignment form,context]
    cases session.context.rebind name value <;> rfl

theorem run_prompted (session : Session) (prompt : Text) (lines : List Text) :
    (session.prompted prompt).run lines =
      ⟨(session.run lines).replies,(session.run lines).session.prompted prompt⟩ := by
  induction lines generalizing session with
  | nil => rfl
  | cons line rest ih =>
    simp only [run,handle_prompted]
    split
    · rfl
    · rw [ih]

end Session
end Reckoner
