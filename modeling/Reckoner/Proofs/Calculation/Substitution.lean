import Reckoner.Proofs.Bindings.Names
import Reckoner.Proofs.Calculation.Respelling
import Reckoner.Proofs.Numeral.Canonical
import Reckoner.Proofs.Token.Substitution

/-!
# Values in the place of names

A name that is bound to a natural number and the numeral of that number are interchangeable in every
text that passes the check of an expression, balanced or not: `Context.calculate_substitute`.
-/

namespace Reckoner

open Grammar Token

variable {name numeral text : Text} {tokens : List Token} {token : Token} {context : Context} {n : Nat}

namespace Context

/-- The numeral is read as the value of the name. -/
structure Interchangeable (context : Context) (name numeral : Text) : Prop where
  named : Plain ⟨.identifier,name⟩
  literal : Plain ⟨.integer,numeral⟩
  bound : context.bindings.get? name = some (Numeral.decimal numeral : Int)
  admitted : context.digitLimit.admits numeral.length = true

theorem Interchangeable.valueOf (interchangeable : context.Interchangeable name numeral)
    (signed : token.Signed) :
    context.valueOf (token.substitute name numeral) = context.valueOf token := by
  obtain ⟨named,literal,bound,admitted⟩ := interchangeable
  obtain ⟨sign,plain,isPlain,anOperand,rfl⟩ := signed
  by_cases identifier : plain.kind = .identifier
  · have same := isPlain
    cases isPlain with
    | @identifier word someLetter letters =>
      rw [substitute_identifier same]
      split
      next replaced =>
        subst replaced
        cases literal with
        | integer someDigit decimal =>
          rw [context.valueOf_integer sign someDigit decimal,if_pos admitted,
            context.valueOf_identifier sign someLetter letters,bound]
      next => rfl
    | integer | operator | lparen | rparen => cases identifier
  · have kept : (plain.withSign sign).kind ≠ .identifier := identifier
    rw [substitute_of_ne kept]

theorem run_map {change : Token → Token} (changes : OperandChange change)
    (same : ∀ token ∈ tokens, token.isOperand = true →
      context.valueOf (change token) = context.valueOf token) (stack : List Int) :
    context.run stack (tokens.map change) = context.run stack tokens := by
  induction tokens generalizing stack with
  | nil => rfl
  | cons token rest ih =>
    obtain ⟨here,later⟩ := List.forall_mem_cons.mp same
    have steps : context.step stack (change token) = context.step stack token := by
      cases anOperand : token.isOperand with
      | true => simp only [step,changes.isOperand_eq,anOperand,if_true,here anOperand]
      | false => rw [changes.other token anOperand]
    rw [run,run,List.map_cons,List.foldlM_cons,List.foldlM_cons,steps]
    exact congrArg _ (funext (ih later))

theorem Interchangeable.calculate (interchangeable : context.Interchangeable name numeral)
    (valid : isExpression text = true) :
    context.calculate (text.substitute name numeral) = context.calculate text := by
  rw [isExpression] at valid
  split at valid
  next tokens read =>
    have exchanged := tokenize_substitute read valid interchangeable.named interchangeable.literal
    have changes := operandChange_substitute name numeral
    rw [calculate_eq_bind,calculate_eq_bind,read,exchanged]
    simp only [Except.bind,changes.alternates_map,valid,if_true,toPostfix_map changes]
    cases converts : toPostfix tokens with
    | error => rfl
    | ok ordered =>
      have valued : ∀ token ∈ ordered, token.isOperand = true →
          context.valueOf (token.substitute name numeral) = context.valueOf token := by
        intro token member anOperand
        have kept := (toPostfix_eq_ok converts).2.1.mem_iff.mp member
        have listed : token ∈ tokens := List.mem_of_mem_filter kept
        exact interchangeable.valueOf ((lexed_of_tokenize read).operand listed anOperand)
      simp only [Except.map,evaluate,run_map changes valued]
  next => cases valid

theorem calculate_substitute (context : Context) (identifier : isIdentifier name = true)
    (bound : context.bindings.get? name = some (n : Int)) (short : context.digitLimit.SufficesFor n)
    (valid : isExpression text = true) :
    context.calculate (text.substitute name (Nat.toDigits 10 n)) = context.calculate text := by
  obtain ⟨someLetter,letters⟩ := isIdentifier_iff.mp identifier
  have decimal : ∀ c ∈ Nat.toDigits 10 n, c.isDigit = true :=
    fun c => Nat.isDigit_of_mem_toDigits (by omega) (by omega)
  apply Interchangeable.calculate _ valid
  refine ⟨.identifier someLetter letters,.integer Nat.toDigits_ne_nil decimal,?_,short⟩
  rw [Numeral.decimal_toDigits]
  exact bound

theorem calculate_substitute_of_neighbours :
    let context : Context :=
      { bindings := ⟨[("x".toList,12),("xy".toList,-3),("Xx".toList,5)]⟩, digitLimit := .atMost 2 }
    let text : Text := "-x^2 - (xy*x--x)/ Xx".toList
    let replaced : Text := "-12^2 - (xy*12--12)/ Xx".toList
    isExpression text = true ∧ text.substitute "x".toList "12".toList = replaced ∧
      context.calculate replaced = context.calculate text ∧ context.calculate text = .ok 148 := by
  intro context text replaced
  have valid : isExpression text = true := by decide +kernel
  have exchanged : text.substitute "x".toList "12".toList = replaced := by decide +kernel
  have short : context.digitLimit.SufficesFor 12 := by
    rw [DigitLimit.SufficesFor]
    decide
  have same := @calculate_substitute "x".toList text 12 context rfl rfl short valid
  exact ⟨valid,exchanged,exchanged ▸ same,by decide +kernel⟩

end Context
end Reckoner
