import Reckoner.Proofs.Postfix.Conservation
import Reckoner.Proofs.Session.Readback
import Reckoner.Proofs.Session.RightSide

/-!
# Two ways from an operand to its value

An assignment takes the value of the one operand on its right side, an expression goes through the
conversion and the stack. On a text that is one operand both ways have one outcome, so that a name
stands for the value that its right side had: `Session.operand_paths_agree`.
-/

namespace Reckoner

open Grammar

variable {session : Session} {line name text lead word trail : Text} {kind : Token.Kind}
  {tokens : List Token} {token : Token} {n : Int}

theorem Token.mem_of_tokenize {c : Char} (read : tokenize text = .ok tokens) (member : token ∈ tokens)
    (inside : c ∈ token.text) : isSign c = true ∨ c ∈ text := by
  have visible := (cut_of_tokenize read).visible
  have collapsed : c ∈ Sign.collapse text := by
    have among : c ∈ tokens.flatMap Token.text := List.mem_flatMap.mpr ⟨token,member,inside⟩
    rw [visible] at among
    exact (List.mem_filter.mp among).1
  exact Sign.mem_collapseFrom collapsed

theorem Token.isParenthesis_of_tokenize (read : tokenize text = .ok tokens) (opens : '(' ∉ text)
    (closes : ')' ∉ text) : ∀ token ∈ tokens, token.isParenthesis = false := by
  intro token member
  obtain ⟨before,after,split⟩ := List.append_of_mem member
  obtain ⟨sign,word,plain,rfl,_⟩ := (lexed_of_tokenize read).word split
  have inside (c : Char) (isText : word.text = [c]) : isSign c = true ∨ c ∈ text := by
    apply mem_of_tokenize read member
    simp [withSign,isText]
  cases plain with
  | identifier | integer | operator => rfl
  | lparen => simpa [opens,isSign,Sign.ofChar?] using inside '(' rfl
  | rparen => simpa [closes,isSign,Sign.ofChar?] using inside ')' rfl

namespace Grammar

theorem isOperand_iff_single : isOperand text = true ↔
    (∃ tokens ordered, Token.tokenize text = .ok tokens ∧ isExpression text = true ∧
      toPostfix tokens = .ok ordered ∧ ordered.length = 1) ∧ '(' ∉ text ∧ ')' ∉ text := by
  constructor
  · intro single
    obtain ⟨kind,lead,word,trail,signed⟩ :=
      mem_operandTexts_iff.mp (isOperand_iff_mem_operandTexts.mp single)
    have anOperand : (Token.withSign (Sign.ofRun? lead) ⟨kind,word⟩).isOperand = true := signed.isOperand
    have parses : Parses .sum [Token.withSign (Sign.ofRun? lead) ⟨kind,word⟩] (.leaf _) :=
      (Parses.operand anOperand).loosen (Layer.level_atom_le _)
    obtain ⟨accepted,_⟩ := parses.accepted signed.tokenize
    refine ⟨⟨_,_,signed.tokenize,accepted,parses.toPostfix,rfl⟩,?_,?_⟩
    · exact fun member => (signed.belongs '(' member).ne.2.2.1 rfl
    · exact fun member => (signed.belongs ')' member).ne.2.2.2 rfl
  · rintro ⟨⟨tokens,ordered,read,accepted,converts,short⟩,opens,closes⟩
    have plain := Token.isParenthesis_of_tokenize read opens closes
    obtain ⟨_,whole,_⟩ := toPostfix_eq_ok converts
    rw [ungrouped_eq_self plain] at whole
    obtain ⟨token,rfl⟩ := List.length_eq_one_iff.mp (whole.length_eq.symm.trans short)
    have walks : alternates .operand [token] = true := by simpa [isExpression,read] using accepted
    have noGroup : token.kind ≠ .lparen := by
      intro group
      have parenthesis := plain token List.mem_cons_self
      simp [Token.isParenthesis,group] at parenthesis
    have anOperand := Token.isOperand_of_alternates walks noGroup
    exact Option.isSome_iff_exists.mpr ⟨token,operand?_eq_some_iff.mpr ⟨read,anOperand⟩⟩

theorem exists_valueOf_eq_calculate (single : isOperand text = true) :
    ∃ operand, Token.tokenize text = .ok [operand] ∧
      ∀ context : Context, context.valueOf operand = context.calculate text := by
  obtain ⟨operand,same⟩ := Option.isSome_iff_exists.mp single
  obtain ⟨read,anOperand⟩ := operand?_eq_some_iff.mp same
  exact ⟨operand,read,fun context => (context.calculate_operand read anOperand).symm⟩

end Grammar

namespace Session

theorem handle_assigned (session : Session) (identifier : isIdentifier name = true)
    (single : isOperand text = true) : session.handle (name ++ " = ".toList ++ text) =
      match session.context.calculate text with
      | .ok n => ({},{ session with bindings := ⟨Bindings.assign name n session.bindings.entries⟩ })
      | .error failure => (.fail failure [],session) := by
  obtain ⟨operand,same⟩ := Option.isSome_iff_exists.mp single
  obtain ⟨read,anOperand⟩ := operand?_eq_some_iff.mp same
  rw [handle_assignment (Line.ofText_identifier identifier text),Context.rebind_strip,
    session.context.rebind_of_operand identifier same,session.context.calculate_operand read anOperand]
  cases session.context.valueOf operand <;> rfl

/-- A line is answered by the numeral of an integer, or it is refused since the limit does not
admit the digits of the integer. -/
inductive Tells (session : Session) (line : Text) (n : Int) : Prop
  | printed {numeral : Text} {trace : List TraceLine} (short : session.digitLimit.SufficesFor n)
      (canonical : Numeral.Canonical numeral n)
      (answered : session.handle line = ({ output := some numeral, trace },session)) : Tells session line n
  | refused {trace : List TraceLine} (long : ¬ session.digitLimit.SufficesFor n)
      (answered : session.handle line = (.fail .resultTooLongToPrint trace,session)) :
      Tells session line n

theorem tells_of_calculate (expression : Line.ofText line = .expression text)
    (evaluates : session.context.calculate text = .ok n) : session.Tells line n := by
  by_cases short : session.digitLimit.SufficesFor n
  · have canonical := Numeral.canonical_write n
    have prints := Numeral.print?_eq_some_iff.mpr ⟨short,canonical⟩
    obtain ⟨trace,answered⟩ := handle_value expression evaluates prints
    exact .printed short canonical answered
  · have unprinted : Numeral.print? session.digitLimit n = none := by
      refine Option.eq_none_iff_forall_ne_some.mpr fun numeral prints => ?_
      exact short (Numeral.print?_eq_some_iff.mp prints).1
    obtain ⟨trace,answers⟩ := session.replyToExpression_eq text
    have answered : session.handle line = (.fail .resultTooLongToPrint trace,session) := by
      simp only [handle,expression,answers,evaluates,answer,unprinted]
    exact .refused short answered

theorem tells_of_bound (identifier : isIdentifier name = true)
    (bound : session.bindings.get? name = some n) : session.Tells name n := by
  obtain ⟨someLetter,letters⟩ := isIdentifier_iff.mp identifier
  have signed : SignedWord name .identifier [] name [] :=
    ⟨by simp,by simp,someLetter,letters,by simp⟩
  have denotes : Denotes session.context (Token.withSign none ⟨.identifier,name⟩) (.ok n) :=
    .bound someLetter letters bound
  have evaluates : session.context.calculate name = .ok n :=
    (session.context.calculate_operand signed.tokenize signed.isOperand).trans
      (told_ok_iff.mp denotes.valueOf)
  exact tells_of_calculate (Line.ofText_operand signed) ((session.context.calculate_strip name).trans evaluates)

/-- How the two ways from a text to a value agree. -/
structure PathsAgree (text : Text) : Prop where
  /-- The first token of an operand, which is its only one, has the outcome of the text. -/
  resolved : isOperand text = true → ∃ operand, Token.tokenize text = .ok [operand] ∧
    ∀ context : Context, context.valueOf operand = context.calculate text
  /-- Operands are the expressions without parentheses that are converted to a single token. -/
  accepted : isOperand text = true ↔
    (∃ tokens ordered, Token.tokenize text = .ok tokens ∧ isExpression text = true ∧
      toPostfix tokens = .ok ordered ∧ ordered.length = 1) ∧ '(' ∉ text ∧ ')' ∉ text
  /-- After an assignment the name tells the value that the text had before it, even where the text
  reads the same name. -/
  kept : ∀ (session : Session) (name : Text), isIdentifier name = true →
    (session.handle (name ++ " = ".toList ++ text)).1.ok = true →
    ∃ n, session.context.calculate text = .ok n ∧
      (session.handle (name ++ " = ".toList ++ text)).2.Tells name n

theorem operand_paths_agree (text : Text) : PathsAgree text where
  resolved := exists_valueOf_eq_calculate
  accepted := isOperand_iff_single
  kept := by
    intro session name identifier succeeds
    cases single : isOperand text with
    | false =>
      have outside : text ∉ operandTexts := by simp [← isOperand_iff_mem_operandTexts,single]
      have refused : session.context.rebind name text = .error .invalidAssignment :=
        (Context.rebind_eq_malformed_iff identifier).mpr outside
      rw [handle_assignment (Line.ofText_identifier identifier text),Context.rebind_strip,refused] at succeeds
      cases succeeds
    | true =>
      rw [session.handle_assigned identifier single] at succeeds ⊢
      cases evaluates : session.context.calculate text with
      | error failure =>
        rw [evaluates] at succeeds
        cases succeeds
      | ok n =>
        refine ⟨n,rfl,tells_of_bound identifier ?_⟩
        simp [Bindings.get?,Bindings.lookup_assign]

example : (({ bindings := ⟨[("x".toList,3)]⟩ } : Session).run
    ["x = - -\t- x".toList,"x".toList]).echoed = ["-3".toList] := by decide

end Session
end Reckoner
