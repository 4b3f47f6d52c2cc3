import Reckoner.Proofs.Evaluation.Limits
import Reckoner.Proofs.Session.Assignment

/-!
# Limits of a session

A session that no limit stops goes the same way under wider limits: limits cut answers off and
change none.
-/

namespace Reckoner

/-- What a line is answered that runs into a limit. -/
def limitMessages : List Text :=
  ["Result too large".toList,"Number too long".toList,"Result too long to print".toList]

theorem Failure.OfLimit.message_mem {failure : Failure} (limited : failure.OfLimit) :
    failure.message ∈ limitMessages := by
  cases failure <;> first | decide | cases limited

theorem Context.Within.rebind {tight wide : Context} (within : tight.Within wide)
    (name value : Text) : Widens (tight.rebind name value) (wide.rebind name value) := by
  rw [Context.rebind,Context.rebind,within.bindings]
  split
  · cases Grammar.operand? value with
    | none => exact .same
    | some operand => exact (within.magnitude operand).map.bind fun _ => .same
  · exact .same

namespace Session

/-- What lines are answered one after another, each reply with the bindings after it. Other than
a run this goes on after a reply that terminates the session. -/
def answers (session : Session) : List Text → List (Reply × Bindings)
  | [] => []
  | line :: rest =>
    let answered := session.handle line
    (answered.1,answered.2.bindings) :: answered.2.answers rest

def under (session : Session) (resultBits : Int) (digitLimit : DigitLimit) : Session :=
  { session with settings := { session.settings with resultBits }, digitLimit }

variable {bits moreBits : Int} {digits moreDigits : DigitLimit}

theorem context_within (session : Session) (bitsLe : bits ≤ moreBits)
    (digitsLe : digits ≤ moreDigits) :
    (session.under bits digits).context.Within (session.under moreBits moreDigits).context :=
  ⟨rfl,digitsLe,bitsLe⟩

theorem answer_under (session : Session) (digitsLe : digits ≤ moreDigits)
    (outcome : Except Failure Int) (trace : List TraceLine) :
    (session.under moreBits moreDigits).answer outcome trace =
        (session.under bits digits).answer outcome trace ∨
      ∃ failure, failure.OfLimit ∧
        ((session.under bits digits).answer outcome trace).failure = some failure := by
  cases outcome with
  | error => exact .inl rfl
  | ok n =>
    cases prints : Numeral.print? digits n with
    | some numeral =>
      have wider := Numeral.print?_of_le digitsLe prints
      simp [answer,under,prints,wider]
    | none => exact .inr ⟨.resultTooLongToPrint,trivial,by simp [answer,under,prints,Reply.fail]⟩

theorem replyToExpression_under (session : Session) (bitsLe : bits ≤ moreBits)
    (digitsLe : digits ≤ moreDigits) (text : Text) :
    (session.under moreBits moreDigits).replyToExpression text =
        (session.under bits digits).replyToExpression text ∨
      ∃ failure, failure.OfLimit ∧
        ((session.under bits digits).replyToExpression text).failure = some failure := by
  have within := session.context_within bitsLe digitsLe
  have reported (limits : Session) : limits.replyToExpression text =
      limits.answer (limits.context.report text).outcome
        (if limits.settings.trace then
          .expression text :: (limits.context.report text).account.map .account else []) := by
    rw [replyToExpression,← Context.report_outcome]
    split <;> rfl
  rw [reported,reported]
  rcases within.report text with same | ⟨failure,limited,fails⟩
  · rw [same]
    exact session.answer_under digitsLe _ _
  · rw [fails]
    exact .inr ⟨failure,limited,rfl⟩

theorem handle_under (session : Session) (bitsLe : bits ≤ moreBits)
    (digitsLe : digits ≤ moreDigits) (line : Text) :
    (∃ reply bindings,
      (session.under bits digits).handle line = (reply,{ session with bindings }.under bits digits) ∧
      (session.under moreBits moreDigits).handle line =
        (reply,{ session with bindings }.under moreBits moreDigits)) ∨
    ∃ failure, failure.OfLimit ∧
      ((session.under bits digits).handle line).1.failure = some failure := by
  cases kind : Line.ofText line with
  | blank =>
    refine .inl ⟨{},session.bindings,?_,?_⟩ <;> rw [handle,kind]
  | command text =>
    refine .inl ⟨Command.replyTo text,session.bindings,?_,?_⟩ <;> rw [handle,kind]
  | expression text =>
    simp only [handle,kind]
    rcases session.replyToExpression_under bitsLe digitsLe text with same | limited
    · rw [same]
      exact .inl ⟨_,session.bindings,rfl,rfl⟩
    · exact .inr limited
  | assignment name value =>
    rw [handle_assignment kind,handle_assignment kind]
    have widens := (session.context_within bitsLe digitsLe).rebind name value
    generalize (session.under bits digits).context.rebind name value = tight at widens
    generalize (session.under moreBits moreDigits).context.rebind name value = wide at widens
    cases widens with
    | cut limited => exact .inr ⟨_,limited,rfl⟩
    | same =>
      cases tight with
      | ok bindings => exact .inl ⟨{},bindings,rfl,rfl⟩
      | error failure => exact .inl ⟨.fail failure [],session.bindings,rfl,rfl⟩

theorem answers_under_wider (session : Session) (bitsLe : bits ≤ moreBits)
    (digitsLe : digits ≤ moreDigits) (lines : List Text)
    (spared : ∀ answer ∈ (session.under bits digits).answers lines, ∀ message ∈ limitMessages,
      answer.1.output ≠ some message) :
    (session.under moreBits moreDigits).answers lines = (session.under bits digits).answers lines := by
  induction lines generalizing session with
  | nil => rfl
  | cons line rest ih =>
    obtain ⟨first,later⟩ := List.forall_mem_cons.mp spared
    rcases session.handle_under bitsLe digitsLe line with
      ⟨reply,bindings,tight,wide⟩ | ⟨failure,limited,fails⟩
    · simp only [answers,tight,wide] at later ⊢
      rw [ih _ later]
      rfl
    · exact absurd (handle_answered fails).2 (first _ limited.message_mem)

theorem answers_under_no_limit :
    let lines := ["x = 12".toList,"x ^ 2 + y".toList,"x ^ 2".toList,"x = -x".toList]
    let tight := under {} 16 (.atMost 3)
    (∀ answer ∈ tight.answers lines, ∀ message ∈ limitMessages, answer.1.output ≠ some message) ∧
      (under {} 1000 .unlimited).answers lines = tight.answers lines := by
  intro lines tight
  have spared : ∀ answer ∈ tight.answers lines, ∀ message ∈ limitMessages,
      answer.1.output ≠ some message := by decide +kernel
  have digitsLe : DigitLimit.atMost 3 ≤ .unlimited := trivial
  exact ⟨spared,answers_under_wider {} (by decide) digitsLe lines spared⟩

end Session
end Reckoner
