import Reckoner.Proofs.Postfix.Conservation

/-!
# Operands under conversion

Neither the grammar checks nor a yard look into an operand. So it makes no difference whether
operands are exchanged before a conversion or after it: `toPostfix_map`.
-/

namespace Reckoner

open Grammar

/-- A change that makes operands of operands and leaves every other token as it is. -/
structure Token.OperandChange (change : Token → Token) : Prop where
  operand : ∀ token, token.isOperand = true → (change token).isOperand = true
  other : ∀ token, token.isOperand = false → change token = token

variable {change : Token → Token} {read waiting : List Token} {token : Token} {yard : Yard}

namespace Token.OperandChange

theorem isOperand_eq (changes : OperandChange change) (token : Token) :
    (change token).isOperand = token.isOperand := by
  cases anOperand : token.isOperand with
  | true => exact changes.operand token anOperand
  | false => rw [changes.other token anOperand,anOperand]

theorem after (changes : OperandChange change) (due : Due) (token : Token) :
    due.after (change token).kind = due.after token.kind := by
  cases anOperand : token.isOperand with
  | false => rw [changes.other token anOperand]
  | true =>
    have changed := changes.operand token anOperand
    cases due with
    | operand => rw [after_operand anOperand,after_operand changed]
    | operator =>
      have refused {token : Token} (anOperand : token.isOperand = true) :
          Due.operator.after token.kind = none := by
        rcases isOperand_iff.mp anOperand with kind | kind <;> rw [kind] <;> rfl
      rw [refused anOperand,refused changed]

theorem alternates_map (changes : OperandChange change) (due : Due) (tokens : List Token) :
    alternates due (tokens.map change) = alternates due tokens := by
  induction tokens generalizing due with
  | nil => rfl
  | cons token rest ih =>
    rw [List.map_cons,alternates,alternates,changes.after]
    cases due.after token.kind with
    | none => rfl
    | some next => exact ih next

theorem fixed (changes : OperandChange change) (holds : yard.Holds read) :
    ∀ top ∈ yard.waiting, change top = top := by
  intro top member
  apply changes.other
  rcases holds.waits top member with kind | kind <;> simp [Token.isOperand,kind]

end Token.OperandChange

namespace Yard

/-- The yard with all that is written changed. -/
def mapOutput (change : Token → Token) (yard : Yard) : Yard :=
  { yard with output := yard.output.map change }

theorem close_map (fixed : ∀ top ∈ waiting, change top = top) (output : List Token) :
    close (output.map change) waiting = (close output waiting).map (mapOutput change) := by
  induction waiting generalizing output with
  | nil => rfl
  | cons top below ih =>
    obtain ⟨same,rest⟩ := List.forall_mem_cons.mp fixed
    have later := ih rest (top :: output)
    rw [List.map_cons,same] at later
    rw [close,close]
    split
    · rfl
    · exact later

theorem enter_map (op : Token) (fixed : ∀ top ∈ waiting, change top = top) (output : List Token) :
    enter op (output.map change) waiting = (enter op output waiting).map (mapOutput change) := by
  induction waiting generalizing output with
  | nil => rfl
  | cons top below ih =>
    obtain ⟨same,rest⟩ := List.forall_mem_cons.mp fixed
    have later := ih rest (top :: output)
    rw [List.map_cons,same] at later
    rw [enter,enter]
    split
    · rfl
    · cases bindsTighter op.text top.text with
      | error => rfl
      | ok tighter =>
        cases tighter with
        | true => rfl
        | false => exact later

theorem accept_map (changes : Token.OperandChange change) (holds : yard.Holds read) (token : Token) :
    (yard.mapOutput change).accept (change token) = (yard.accept token).map (mapOutput change) := by
  cases anOperand : token.isOperand with
  | true =>
    rw [accept_operand anOperand,accept_operand (changes.operand token anOperand)]
    rfl
  | false =>
    have fixed := changes.fixed holds
    rw [changes.other token anOperand,accept,accept]
    cases kind : token.kind with
    | identifier | integer => simp [Token.isOperand,kind] at anOperand
    | lparen => rfl
    | rparen => exact close_map fixed yard.output
    | operator => exact enter_map token fixed yard.output

theorem acceptAll_map (changes : Token.OperandChange change) (holds : yard.Holds read)
    (tokens : List Token) : (yard.mapOutput change).acceptAll (tokens.map change) =
      (yard.acceptAll tokens).map (mapOutput change) := by
  induction tokens generalizing yard read with
  | nil => rfl
  | cons token rest ih =>
    rw [List.map_cons,acceptAll_cons,acceptAll_cons,accept_map changes holds]
    cases accepts : yard.accept token with
    | error => rfl
    | ok next => exact ih (holds.step (accept_eq_ok_iff.mp accepts))

theorem finish_map (changes : Token.OperandChange change) (holds : yard.Holds read) :
    (yard.mapOutput change).finish = yard.finish.map (List.map change) := by
  have same : yard.waiting.map change = yard.waiting :=
    (List.map_congr_left (changes.fixed holds)).trans (List.map_id' yard.waiting)
  by_cases opened : yard.waiting.any (·.kind = .lparen) = true
  · rw [finish,finish,mapOutput,if_pos opened,if_pos opened]
    rfl
  · rw [finish,finish,mapOutput,if_neg opened,if_neg opened]
    simp [Except.map,written,same]

end Yard

theorem toPostfix_map (changes : Token.OperandChange change) (tokens : List Token) :
    toPostfix (tokens.map change) = (toPostfix tokens).map (List.map change) := by
  have accepts := Yard.acceptAll_map changes Yard.holds_empty tokens
  rw [toPostfix,toPostfix]
  refine (congrArg (Except.bind · Yard.finish) accepts).trans ?_
  cases accepted : Yard.acceptAll {} tokens with
  | error => rfl
  | ok yard => exact Yard.finish_map changes (Yard.holds_of_acceptAll accepted)

end Reckoner
