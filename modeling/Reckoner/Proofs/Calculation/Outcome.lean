import Reckoner.Calculation
import Reckoner.Proofs.Evaluation.Meaning
import Reckoner.Proofs.Grammar.Nesting
import Reckoner.Proofs.Postfix.Balance
import Reckoner.Proofs.Tree.Postorder

/-!
# Outcomes of calculations

A text whose tokens derive from the grammar has the outcome of its one tree. Every other text
is an invalid expression, and a derivable one never is.
-/

namespace Reckoner

open Grammar

variable {text : Text} {tokens : List Token} {tree : Tree} {failure : Failure}

theorem Grammar.Parses.lexed (parses : Parses layer tokens tree)
    (signed : ∀ token ∈ tokens, token.isOperand = true → token.Signed) : tree.Lexed := by
  induction parses with
  | operand anOperand => exact signed _ List.mem_cons_self anOperand
  | group _ _ _ ih =>
    exact ih fun token member => signed token (by simp [member])
  | lift _ _ ih => exact ih signed
  | chain _ names _ _ ihl ihr =>
    refine ⟨⟨_,Operator.ofText?_eq_some_iff.mp names⟩,?_,?_⟩
    · exact ihl fun token member => signed token (by simp [member])
    · exact ihr fun token member => signed token (by simp [member])

namespace Stages

theorem ofText_of_read (read : Token.tokenize text = .ok tokens) :
    ofText text = if alternates .operand tokens then
      (toPostfix tokens).map (⟨Sign.collapse text,tokens,·⟩) else .error .misplacedToken := by
  simp only [ofText,read,bind,Except.bind]
  split
  · cases toPostfix tokens <;> rfl
  · rfl

theorem ofText_of_parses (read : Token.tokenize text = .ok tokens)
    (parses : Parses .sum tokens tree) :
    ofText text = .ok ⟨Sign.collapse text,tokens,tree.postorder⟩ := by
  obtain ⟨walks,_⟩ := derivable_iff_alternates_nest.mp parses.derivable
  rw [ofText_of_read read,if_pos walks,parses.toPostfix]
  rfl

/-- Two checks share the refusal: one of the places of tokens, one of the balance. -/
theorem ofText_of_not_derivable (read : Token.tokenize text = .ok tokens)
    (refused : ¬ Derivable .expression tokens) :
    ofText text = .error .misplacedToken ∨ ofText text = .error .unbalancedGroup := by
  rw [ofText_of_read read]
  by_cases walks : alternates .operand tokens = true
  · have openGroup : nest 0 tokens ≠ some 0 :=
      fun closed => refused (derivable_iff_alternates_nest.mpr ⟨walks,closed⟩)
    have comparable := (Token.lexed_of_tokenize read).named.comparable
    rcases toPostfix_balance comparable with ⟨closed,_⟩ | ⟨_,fails⟩
    · contradiction
    · rw [if_pos walks,fails]
      exact .inr rfl
  · exact .inl (if_neg walks)

/-- A text has a tree, the postorder of which the conversion gives, or one of three checks refuses
it: of the characters, of the places of tokens or of the balance. -/
theorem ofText_cases (text : Text) :
    (∃ tokens tree, Token.tokenize text = .ok tokens ∧ Parses .sum tokens tree ∧
      ofText text = .ok ⟨Sign.collapse text,tokens,tree.postorder⟩) ∨
    ∃ failure, ofText text = .error failure ∧
      (failure = .strayCharacter ∨ failure = .misplacedToken ∨ failure = .unbalancedGroup) := by
  by_cases lexical : ∀ c ∈ text, Token.Lexical c
  · have read := Token.tokenize_of_lexical lexical
    by_cases derivable : Derivable .expression (Token.attachSign (Token.scan (Sign.collapse text)))
    · obtain ⟨tree,parses⟩ := derivable.parses (Token.lexed_of_tokenize read).named
      exact .inl ⟨_,tree,read,parses,ofText_of_parses read parses⟩
    · rcases ofText_of_not_derivable read derivable with refused | refused
      · exact .inr ⟨_,refused,.inr (.inl rfl)⟩
      · exact .inr ⟨_,refused,.inr (.inr rfl)⟩
  · have stray : ∃ c ∈ text, ¬ Token.Lexical c := by simpa using lexical
    refine .inr ⟨.strayCharacter,?_,.inl rfl⟩
    rw [ofText,Token.tokenize_of_not_lexical stray]
    rfl

theorem kind_of_ofText (refuses : ofText text = .error failure) : failure.kind = .invalidExpression := by
  rcases ofText_cases text with ⟨_,_,_,_,passes⟩ | ⟨_,refused,checks⟩
  · rw [passes] at refuses
    cases refuses
  · obtain rfl := Except.error.inj (refused.symm.trans refuses)
    rcases checks with rfl | rfl | rfl <;> rfl

theorem tree_of_ofText {stages : Stages} (passes : ofText text = .ok stages) :
    ∃ tree, Parses .sum stages.tokens tree ∧ tree.Lexed ∧ stages.ordered = tree.postorder := by
  rcases ofText_cases text with ⟨tokens,tree,read,parses,gives⟩ | ⟨_,refused,_⟩
  · rw [gives] at passes
    cases passes
    exact ⟨tree,parses,parses.lexed fun _ => (Token.lexed_of_tokenize read).operand,rfl⟩
  · rw [refused] at passes
    cases passes

end Stages

/-- The walk over the tokens and the conversion together decide the grammar. -/
theorem isExpression_and_toPostfix_iff (read : Token.tokenize text = .ok tokens) :
    (isExpression text = true ∧ ∃ ordered, toPostfix tokens = .ok ordered) ↔
      Derivable .expression tokens := by
  have walks : isExpression text = alternates .operand tokens := by simp [isExpression,read]
  have balance := toPostfix_balance (Token.lexed_of_tokenize read).named.comparable
  rw [derivable_iff_alternates_nest,walks]
  apply and_congr_right
  intro _
  rcases balance with ⟨closed,converts⟩ | ⟨unclosed,fails⟩
  · exact iff_of_true converts closed
  · exact iff_of_false (by simp [fails]) unclosed

namespace Context

theorem calculate_of_parses (context : Context) (read : Token.tokenize text = .ok tokens)
    (parses : Parses .sum tokens tree) : context.calculate text = tree.value context := by
  rw [calculate,Stages.ofText_of_parses read parses]
  exact Tree.evaluate_postorder context parses.formed

theorem calculate_operand (context : Context) (read : Token.tokenize text = .ok [token])
    (anOperand : token.isOperand = true) : context.calculate text = context.valueOf token := by
  have parses : Parses .sum [token] (.leaf token) :=
    (Parses.operand anOperand).loosen (Layer.level_atom_le _)
  rw [context.calculate_of_parses read parses]
  rfl

theorem calculate_evaluates (context : Context) (read : Token.tokenize text = .ok tokens)
    (derives : ∃ tree, Parses .sum tokens tree) :
    ∃ tree, (∀ other, Parses .sum tokens other ↔ other = tree) ∧
      ∀ told, (context.calculate text).mapError Failure.told = told ↔
        Evaluates context tree told := by
  obtain ⟨tree,parses⟩ := derives
  have lexed : tree.Lexed := parses.lexed fun _ member anOperand =>
    (Token.lexed_of_tokenize read).operand member anOperand
  refine ⟨tree,fun other => ⟨parses.unique,?_⟩,fun told => ?_⟩
  · rintro rfl
    exact parses
  · rw [context.calculate_of_parses read parses]
    exact (Tree.evaluates_iff_value lexed).symm

theorem calculate_evaluates_left_to_right :
    ∃ tokens tree, Token.tokenize "- 2 + (n - 3 - 1) ^ 2 / 2".toList = .ok tokens ∧
      (∀ other, Parses .sum tokens other ↔ other = tree) ∧
      Evaluates { bindings := ⟨[("n".toList,9)]⟩ } tree (.ok 10) := by
  have read : Token.tokenize "- 2 + (n - 3 - 1) ^ 2 / 2".toList = .ok _ := rfl
  have derives := (derivable_iff_alternates_nest.mpr (by decide)).parses
    (Token.lexed_of_tokenize read).named
  obtain ⟨tree,only,outcome⟩ :=
    calculate_evaluates { bindings := ⟨[("n".toList,9)]⟩ } read derives
  exact ⟨_,tree,read,only,(outcome _).mp (by decide +kernel)⟩

theorem calculate_error_kind (context : Context) (read : Token.tokenize text = .ok tokens)
    (derivable : Derivable .expression tokens)
    (fails : context.calculate text = .error failure) :
    failure.kind = .unknownVariable ∨ failure.kind = .arithmeticFault := by
  have lexed := Token.lexed_of_tokenize read
  obtain ⟨tree,parses⟩ := derivable.parses lexed.named
  have evaluates : Evaluates context tree (.error failure.told) := by
    apply (Tree.evaluates_iff_value (parses.lexed fun _ => lexed.operand)).mpr
    rw [← context.calculate_of_parses read parses,fails]
    rfl
  exact evaluates.fault_kind _ rfl

theorem calculate_of_not_derivable (context : Context) (read : Token.tokenize text = .ok tokens)
    (refused : ¬ Derivable .expression tokens) :
    ∃ failure, context.calculate text = .error failure ∧ failure.kind = .invalidExpression := by
  rcases Stages.ofText_of_not_derivable read refused with fails | fails
  all_goals
    rw [calculate,fails]
    exact ⟨_,rfl,rfl⟩

theorem calculate_invalid_iff (context : Context) (text : Text) :
    ((∃ failure, context.calculate text = .error failure ∧ failure.kind = .invalidExpression) ↔
      (∃ c ∈ text, ¬ Token.Lexical c) ∨
        ∃ tokens, Token.tokenize text = .ok tokens ∧ ¬ Derivable .expression tokens) ∧
    ∀ tokens, Token.tokenize text = .ok tokens →
      ((isExpression text = true ∧ ∃ ordered, toPostfix tokens = .ok ordered) ↔
        Derivable .expression tokens) ∧
      (Derivable .expression tokens → ∀ failure, context.calculate text = .error failure →
        failure.kind = .unknownVariable ∨ failure.kind = .arithmeticFault) := by
  refine ⟨⟨?_,?_⟩,fun tokens read => ⟨?_,fun derivable failure => ?_⟩⟩
  · rintro ⟨failure,fails,kind⟩
    by_cases lexical : ∀ c ∈ text, Token.Lexical c
    · have read := Token.tokenize_of_lexical lexical
      refine .inr ⟨_,read,fun derivable => ?_⟩
      have other := context.calculate_error_kind read derivable fails
      simp [kind] at other
    · exact .inl (by simpa using lexical)
  · rintro (stray | ⟨tokens,read,refused⟩)
    · refine ⟨.strayCharacter,?_,rfl⟩
      rw [calculate,Stages.ofText,Token.tokenize_of_not_lexical stray]
      rfl
    · exact context.calculate_of_not_derivable read refused
  · exact isExpression_and_toPostfix_iff read
  · exact context.calculate_error_kind read derivable

end Context
end Reckoner
