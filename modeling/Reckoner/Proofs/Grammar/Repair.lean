import Reckoner.Proofs.Grammar.Nesting

/-!
# Repairs

The check of an expression is a walk that takes no count of groups. What it accepts may lack
parentheses at its two ends, and nothing else: `isExpression_iff_repairable`.
-/

namespace Reckoner.Grammar

def fenced (opening closing : Nat) (tokens : List Token) : List Token :=
  List.replicate opening ⟨.lparen,['(']⟩ ++ tokens ++ List.replicate closing ⟨.rparen,[')']⟩

theorem alternates_opened (opening : Nat) (tokens : List Token) :
    alternates .operand (List.replicate opening ⟨.lparen,['(']⟩ ++ tokens) =
      alternates .operand tokens := by
  induction opening with
  | zero => rfl
  | succ opening ih =>
    rw [List.replicate_succ,List.cons_append,← ih]
    exact alternates_cons rfl _

theorem alternates_closed (due : Due) (tokens : List Token) (closing : Nat) :
    alternates due (tokens ++ List.replicate closing ⟨.rparen,[')']⟩) = alternates due tokens := by
  induction tokens generalizing due with
  | nil =>
    induction closing with
    | zero => rfl
    | succ closing ih =>
      cases due with
      | operand => rfl
      | operator => exact (alternates_cons rfl _).trans ih
  | cons token rest ih =>
    rw [List.cons_append,alternates,alternates]
    cases due.after token.kind with
    | none => rfl
    | some next => exact ih next

theorem alternates_fenced (opening closing : Nat) (tokens : List Token) :
    alternates .operand (fenced opening closing tokens) = alternates .operand tokens := by
  rw [fenced,alternates_closed,alternates_opened]

theorem nest_opening (depth opening : Nat) :
    nest depth (List.replicate opening ⟨.lparen,['(']⟩) = some (depth + opening) := by
  induction opening generalizing depth with
  | zero => rfl
  | succ opening ih =>
    rw [List.replicate_succ,nest_cons,show enclose depth .lparen = some (depth + 1) from rfl]
    rw [Option.bind_some,ih,Nat.add_right_comm,Nat.add_assoc]

theorem nest_closing (closing : Nat) :
    nest closing (List.replicate closing ⟨.rparen,[')']⟩) = some 0 := by
  induction closing with
  | zero => rfl
  | succ closing ih =>
    rw [List.replicate_succ,nest_cons]
    exact ih

theorem nest_of_closed (tokens : List Token) : nest (closed tokens) tokens = some (opened tokens) := by
  refine nest_eq_some_iff.mpr ⟨fun front leads => ?_,Nat.add_comm _ _⟩
  have fewer : closed front ≤ closed tokens := leads.sublist.countP_le
  exact Nat.le_trans fewer (Nat.le_add_right _ _)

/-- An opening parenthesis for each group that is closed, and a closing one for each that is
opened, balance any tokens. -/
theorem nest_fenced (tokens : List Token) :
    nest 0 (fenced (closed tokens) (opened tokens) tokens) = some 0 := by
  rw [fenced,nest_append,nest_append,nest_opening,Nat.zero_add,Option.bind_some,nest_of_closed,
    Option.bind_some,nest_closing]

theorem alternates_iff_fenced {tokens : List Token} : alternates .operand tokens = true ↔
    ∃ opening closing, Derivable .expression (fenced opening closing tokens) := by
  constructor
  · intro walks
    refine ⟨closed tokens,opened tokens,derivable_iff_alternates_nest.mpr ⟨?_,nest_fenced tokens⟩⟩
    rw [alternates_fenced]
    exact walks
  · rintro ⟨opening,closing,derivable⟩
    have walks := (derivable_iff_alternates_nest.mp derivable).1
    rwa [alternates_fenced] at walks

theorem isExpression_iff_repairable (text : Text) : isExpression text = true ↔
    ∃ tokens, Token.tokenize text = .ok tokens ∧
      ∃ opening closing, Derivable .expression (fenced opening closing tokens) := by
  rw [isExpression]
  cases Token.tokenize text with
  | error => simp
  | ok tokens => simpa using alternates_iff_fenced

end Reckoner.Grammar
