import Reckoner.Proofs.Calculation.Agreement
import Reckoner.Proofs.Calculation.Respelling
import Reckoner.Proofs.Session.Containment
import Reckoner.Proofs.Sign.Normal
import Reckoner.Proofs.Token.Image

/-!
# Accounts

What a report tells of the stages of a calculation is what was calculated with. The normalized
text and the tokens that it shows can be calculated in place of the text: the outcome is the same,
and so is all of the account but its first line: `Context.report_faithful`.
-/

namespace Reckoner

open Grammar

/-- A text that passes every stage before its evaluation, with its tokens and their postfix order. -/
structure Staged (text : Text) (tokens ordered : List Token) : Prop where
  read : Token.tokenize text = .ok tokens
  valid : isExpression text = true
  converts : toPostfix tokens = .ok ordered

/-- The account of a text with its outcome: one line if a stage before the evaluation fails, and
otherwise three lines, with one more if the evaluation fails. -/
inductive Context.Recounts (context : Context) (text : Text) : Except Failure Int → List Text → Prop
  | refused {failure : Failure} (refuses : ∀ tokens ordered, ¬ Staged text tokens ordered)
      (kind : failure.kind = .invalidExpression) :
      Recounts context text (.error failure) ["  failed: ".toList ++ "invalid-expression".toList]
  | evaluated (staged : Staged text tokens ordered) (evaluates : context.evaluate ordered = .ok n) :
      Recounts context text (.ok n)
        ["  normalized: ".toList ++ (Sign.collapse text).strip,
          "  tokens: ".toList ++ Token.spell tokens,"  postfix: ".toList ++ Token.spell ordered]
  | failed {failure : Failure} (staged : Staged text tokens ordered)
      (fails : context.evaluate ordered = .error failure) :
      Recounts context text (.error failure)
        ["  normalized: ".toList ++ (Sign.collapse text).strip,
          "  tokens: ".toList ++ Token.spell tokens,"  postfix: ".toList ++ Token.spell ordered,
          "  failed: ".toList ++ failure.kind.label]

variable {context : Context} {text other shown : Text} {tokens ordered : List Token}
  {failure : Failure}

theorem Staged.of_tokenize (staged : Staged text tokens ordered)
    (same : Token.tokenize other = Token.tokenize text) : Staged other tokens ordered := by
  obtain ⟨read,valid,converts⟩ := staged
  refine ⟨same.trans read,?_,converts⟩
  rwa [isExpression,same]

namespace Stages

theorem ofText_of_staged (staged : Staged text tokens ordered) :
    ofText text = .ok ⟨Sign.collapse text,tokens,ordered⟩ := by
  have walks := staged.valid
  rw [isExpression,staged.read] at walks
  rw [ofText_of_read staged.read,if_pos walks,staged.converts]
  rfl

theorem staged_of_ofText {stages : Stages} (passes : ofText text = .ok stages) :
    Staged text stages.tokens stages.ordered := by
  have read := tokenize_of_ofText passes
  obtain ⟨tree,parses,_,ordered⟩ := tree_of_ofText passes
  refine ⟨read,(parses.accepted read).1,?_⟩
  rw [ordered,parses.toPostfix]

end Stages

namespace Token

theorem tokenize_collapse (lexical : ∀ c ∈ text, Lexical c) :
    tokenize (Sign.collapse text) = tokenize text := by
  have settled : (Sign.collapse text).IsChain Sign.Settles := Sign.isChain_collapseFrom none text
  rw [tokenize_of_lexical lexical,tokenize_of_lexical (lexical_collapse lexical),
    Sign.collapse_of_settled settled]

/-- What is shown of a text is read as the text is: its collapse without the blanks around it, and
its tokens with single spaces between them. -/
theorem tokenize_shown (read : tokenize text = .ok tokens)
    (shows : shown = (Sign.collapse text).strip ∨ shown = spell tokens) :
    tokenize shown = tokenize text := by
  rcases shows with rfl | rfl
  · rw [tokenize_strip,tokenize_collapse (tokenize_eq_ok_iff.mp read).1]
  · rw [read,(readable_of_tokenize read).tokenize_spell]

end Token

namespace Context

theorem report_of_ok {n : Int} (staged : Staged text tokens ordered)
    (evaluates : context.evaluate ordered = .ok n) :
    context.report text = ⟨.ok n,Stages.lines ⟨Sign.collapse text,tokens,ordered⟩⟩ := by
  simp only [report,Stages.ofText_of_staged staged,evaluates]

theorem report_of_error (staged : Staged text tokens ordered)
    (fails : context.evaluate ordered = .error failure) :
    context.report text =
      ⟨.error failure,Stages.lines ⟨Sign.collapse text,tokens,ordered⟩ ++ [failure.line]⟩ := by
  simp only [report,Stages.ofText_of_staged staged,fails]

theorem recounts_report (context : Context) (text : Text) :
    context.Recounts text (context.report text).outcome (context.report text).account := by
  cases stops : Stages.ofText text with
  | ok stages =>
    have staged := Stages.staged_of_ofText stops
    cases evaluates : context.evaluate stages.ordered with
    | error failure =>
      rw [report_of_error staged evaluates]
      exact .failed staged evaluates
    | ok n =>
      rw [report_of_ok staged evaluates]
      exact .evaluated staged evaluates
  | error failure =>
    have kind := Stages.kind_of_ofText stops
    have line : failure.line = "  failed: ".toList ++ "invalid-expression".toList :=
      congrArg (fun kind => "  failed: ".toList ++ kind.label) kind
    have refuses : ∀ tokens ordered, ¬ Staged text tokens ordered := by
      intro tokens ordered staged
      cases stops.symm.trans (Stages.ofText_of_staged staged)
    rw [report,stops]
    show context.Recounts text (.error failure) [failure.line]
    rw [line]
    exact .refused refuses kind

theorem report_of_tokenize (context : Context) (staged : Staged text tokens ordered)
    (same : Token.tokenize other = Token.tokenize text) :
    ∃ first, context.report other = ⟨context.calculate text,first :: (context.report text).account.tail⟩ := by
  have restaged := staged.of_tokenize same
  refine ⟨"  normalized: ".toList ++ (Sign.collapse other).strip,?_⟩
  rw [← report_outcome]
  cases evaluates : context.evaluate ordered with
  | error failure =>
    rw [report_of_error staged evaluates,report_of_error restaged evaluates]
    rfl
  | ok n =>
    rw [report_of_ok staged evaluates,report_of_ok restaged evaluates]
    rfl

theorem report_faithful (context : Context) (text : Text) :
    (context.report text).outcome = context.calculate text ∧
    context.Recounts text (context.calculate text) (context.report text).account ∧
    ∀ shown, "  normalized: ".toList ++ shown ∈ (context.report text).account ∨
        "  tokens: ".toList ++ shown ∈ (context.report text).account →
      ∃ first, context.report shown =
        ⟨context.calculate text,first :: (context.report text).account.tail⟩ := by
  have outcome := context.report_outcome text
  have recounts := context.recounts_report text
  rw [outcome] at recounts
  refine ⟨outcome,recounts,fun shown member => ?_⟩
  have shows : ∀ tokens ordered, Staged text tokens ordered →
      shown = (Sign.collapse text).strip ∨ shown = Token.spell tokens → _ :=
    fun tokens ordered staged shows =>
      context.report_of_tokenize staged (Token.tokenize_shown staged.read shows)
  generalize context.calculate text = told at *
  generalize (context.report text).account = account at *
  cases recounts with
  | refused => simp at member
  | evaluated staged => exact shows _ _ staged (by simpa using member)
  | failed staged => exact shows _ _ staged (by simpa using member)

end Context
end Reckoner
