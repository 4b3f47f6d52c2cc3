import Reckoner.Session
import Reckoner.Proofs.Calculation.Outcome
import Reckoner.Proofs.Evaluation.Height
import Reckoner.Proofs.Grammar.Operand

/-!
# Containment of failures

Every line is answered, and no answer tells of a fault of the calculator itself: what one stage
relies on, an earlier one has checked.
-/

namespace Reckoner

open Grammar

/-- The failures that no input causes, only a stage that was handed what it does not expect. -/
def Failure.Internal : Failure → Prop
  | missingOperand | surplusOperand | unknownOperator | unrankedOperator _ => True
  | _ => False

theorem Failure.Internal.kind {failure : Failure} (internal : failure.Internal) :
    failure.kind = .invalidExpression ∨ failure.kind = .unrankedOperator := by
  cases failure <;> first | exact .inl rfl | exact .inr rfl | cases internal

variable {text : Text} {tokens : List Token} {failure : Failure}

theorem Context.calculate_not_internal {context : Context}
    (fails : context.calculate text = .error failure) : ¬ failure.Internal := by
  intro internal
  rcases Stages.ofText_cases text with ⟨_,_,read,parses,_⟩ | ⟨_,refused,checks⟩
  · have kinds := internal.kind
    rcases context.calculate_error_kind read parses.derivable fails with kind | kind <;>
      simp [kind] at kinds
  · rw [Context.calculate,refused] at fails
    cases fails
    rcases checks with rfl | rfl | rfl <;> exact internal

theorem Context.report_outcome (context : Context) (text : Text) :
    (context.report text).outcome = context.calculate text := by
  rw [report,calculate]
  cases Stages.ofText text with
  | error => rfl
  | ok stages =>
    simp only [bind,Except.bind]
    cases context.evaluate stages.ordered <;> rfl

theorem Token.Lexed.read?_eq_none_iff (lexed : Token.Lexed tokens) {token : Token}
    (member : token ∈ tokens) (integer : token.kind = .integer) (limit : DigitLimit) :
    Numeral.read? limit token.bare = none ↔ limit.admits token.bare.length = false := by
  have anOperand : token.isOperand = true := by simp [Token.isOperand,integer]
  obtain ⟨sign,plain,isPlain,plainOperand,rfl⟩ := lexed.operand member anOperand
  rw [isPlain.bare_withSign plainOperand]
  cases isPlain with
  | integer someDigit all =>
    rw [Numeral.read?_digits limit someDigit all]
    cases limit.admits _ <;> simp
  | identifier | operator | lparen | rparen => cases integer

theorem Bindings.exists_set (bindings : Bindings) {name : Text} (identifier : isIdentifier name = true)
    (n : Int) : ∃ next, bindings.set name n = .ok next :=
  ⟨_,if_pos identifier⟩

theorem Context.valueOf_eq_tooLong_iff (context : Context) {token : Token}
    (integer : token.kind = .integer) :
    Numeral.read? context.digitLimit token.bare = none ↔
      context.valueOf token = .error .numberTooLong := by
  rw [valueOf,magnitude,if_pos integer]
  cases Numeral.read? context.digitLimit token.bare <;> simp [Except.map]

namespace Session

theorem assign_error {session : Session} {name value : Text}
    (fails : session.assign name value = .error failure) :
    (failure = .invalidIdentifier ∧ isIdentifier name = false) ∨ failure = .invalidAssignment ∨
      failure = .numberTooLong ∨ failure = .unknownVariable := by
  rw [assign] at fails
  split at fails
  next identifier =>
    split at fails
    next operand _ =>
      cases result : session.context.valueOf operand with
      | error =>
        rw [result] at fails
        cases fails
        exact .inr (.inr (Context.valueOf_error result))
      | ok n =>
        obtain ⟨next,sets⟩ := session.bindings.exists_set identifier n
        simp [result,sets,bind,Except.bind,pure,Except.pure] at fails
    next =>
      cases fails
      exact .inr (.inl rfl)
  next other =>
    cases fails
    exact .inl ⟨rfl,by simpa using other⟩

/-- What holds of the answer to a line and of the stages on the way to it. -/
structure Contained (session : Session) (line : Text) : Prop where
  /-- A failure is answered by its message, and it is not internal. -/
  answered : ∀ failure, (session.handle line).1.failure = some failure →
    ¬ failure.Internal ∧ (session.handle line).1.output = some failure.message
  /-- The value of an assignment has a first token if it has the form of an operand. -/
  valued : ∀ name value, Line.ofText line = .assignment name value → isOperand value = true →
    ∃ token rest, Token.tokenize value = .ok (token :: rest)
  /-- The name of an assignment is never refused after its check. -/
  bound : ∀ name value, Line.ofText line = .assignment name value → isIdentifier name = true →
    ∀ n, ∃ next, session.bindings.set name n = .ok next
  /-- Each operator finds two values and names an operation. -/
  supplied : ∀ text stages, Line.ofText line = .expression text →
    Stages.ofText text = .ok stages → ∀ front token back, stages.ordered = front ++ token :: back →
    token.isOperand = false → ∀ found, session.context.run [] front = .ok found →
    2 ≤ found.length ∧ ∃ op, Operator.ofText? token.text = some op
  /-- In the end one value is left. -/
  settled : ∀ text stages, Line.ofText line = .expression text →
    Stages.ofText text = .ok stages → ∀ found, session.context.run [] stages.ordered = .ok found →
    ∃ value, found = [value]
  /-- A literal that cannot be read is a failure, and only the number of its digits is wrong. -/
  readable : ∀ text tokens, Token.tokenize text = .ok tokens → ∀ token ∈ tokens,
    token.kind = .integer →
    (Numeral.read? session.digitLimit token.bare = none ↔
      session.digitLimit.admits token.bare.length = false) ∧
    (Numeral.read? session.digitLimit token.bare = none ↔
      session.context.valueOf token = .error .numberTooLong)
  /-- A value that cannot be printed is answered by a failure. -/
  printed : ∀ text value, Line.ofText line = .expression text →
    session.context.calculate text = .ok value → Numeral.print? session.digitLimit value = none →
    (session.handle line).1.failure = some .resultTooLongToPrint

theorem answer_answered {session : Session} {outcome : Except Failure Int} {trace : List TraceLine}
    (contained : ∀ failure, outcome = .error failure → ¬ failure.Internal)
    (fails : (session.answer outcome trace).failure = some failure) :
    ¬ failure.Internal ∧ (session.answer outcome trace).output = some failure.message := by
  unfold answer at fails ⊢
  split at fails
  next other =>
    cases fails
    exact ⟨contained failure rfl,rfl⟩
  next value =>
    split at fails
    · cases fails
    next =>
      cases fails
      exact ⟨id,rfl⟩

theorem replyToExpression_eq (session : Session) (text : Text) :
    ∃ trace, session.replyToExpression text = session.answer (session.context.calculate text) trace := by
  rw [replyToExpression,← Context.report_outcome]
  split
  · exact ⟨_,rfl⟩
  · exact ⟨_,rfl⟩

theorem handle_answered {session : Session} {line : Text}
    (fails : (session.handle line).1.failure = some failure) :
    ¬ failure.Internal ∧ (session.handle line).1.output = some failure.message := by
  unfold handle at fails ⊢
  split at fails
  · cases fails
  next text _ =>
    unfold Command.replyTo at fails ⊢
    split at fails
    next command _ => cases command <;> cases fails
    next => cases fails; exact ⟨id,rfl⟩
  next name value _ =>
    split at fails
    · cases fails
    next other refused =>
      cases fails
      refine ⟨?_,rfl⟩
      rcases assign_error refused with ⟨rfl,_⟩ | rfl | rfl | rfl <;> exact id
  next text _ =>
    obtain ⟨trace,answers⟩ := session.replyToExpression_eq text
    simp only [answers] at fails ⊢
    exact answer_answered (fun _ => Context.calculate_not_internal) fails

theorem handle_expression {session : Session} {line : Text}
    (expression : Line.ofText line = .expression text) :
    (session.handle line).1 = session.replyToExpression text := by
  rw [handle,expression]

/-- Whatever the bindings, the settings and the limit are, no fault escapes from a line. -/
theorem handle_contained (session : Session) (line : Text) : session.Contained line where
  answered := fun _ => handle_answered
  valued := by
    intro name value _ anOperand
    obtain ⟨operand,same⟩ := Option.isSome_iff_exists.mp anOperand
    exact ⟨operand,[],(operand?_eq_some_iff.mp same).1⟩
  bound := fun _ _ _ identifier n => session.bindings.exists_set identifier n
  supplied := by
    intro text stages _ passes front token back splitAt anOperator found runs
    obtain ⟨tree,parses,lexed,ordered⟩ := Stages.tree_of_ofText passes
    rw [ordered] at splitAt
    have holds := tree.height_postorder parses.formed 0
    rw [splitAt] at holds
    obtain ⟨height,reaches,enough⟩ := height_before_operator holds anOperator
    have same : some height = some found.length := reaches.symm.trans (Context.run_height runs)
    refine ⟨Option.some.inj same ▸ enough,lexed.names ?_ anOperator⟩
    simp [splitAt]
  settled := by
    intro text stages _ passes found runs
    obtain ⟨tree,parses,_,ordered⟩ := Stages.tree_of_ofText passes
    have holds := tree.height_postorder parses.formed 0
    rw [← ordered] at holds
    have same : some found.length = some 1 := (Context.run_height runs).symm.trans holds
    exact List.length_eq_one_iff.mp (Option.some.inj same)
  readable := by
    intro text tokens read token member integer
    refine ⟨(Token.lexed_of_tokenize read).read?_eq_none_iff member integer _,?_⟩
    exact session.context.valueOf_eq_tooLong_iff integer
  printed := by
    intro text value expression computes unprinted
    obtain ⟨trace,answers⟩ := session.replyToExpression_eq text
    rw [handle_expression expression,answers,computes,answer,unprinted]
    rfl

/-- No fault escapes from a run of lines either. -/
theorem run_answered (session : Session) (lines : List Text) :
    ∀ reply ∈ (session.run lines).replies, ∀ failure, reply.failure = some failure →
      ¬ failure.Internal ∧ reply.output = some failure.message := by
  induction lines generalizing session with
  | nil => simp [run]
  | cons line rest ih =>
    intro reply member failure fails
    rw [run] at member
    split at member
    · obtain rfl := List.mem_singleton.mp member
      exact handle_answered fails
    · rcases List.mem_cons.mp member with rfl | later
      · exact handle_answered fails
      · exact ih _ reply later failure fails

end Session
end Reckoner
