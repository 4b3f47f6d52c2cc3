import Mathlib.Data.List.Induction
import Reckoner.Proofs.Postfix.Conversion

/-!
# Steps of a yard

What a yard does with a token that it accepts, told by the tokens that wait and not by the way
through them: `Yard.accept_eq_ok_iff`. What each such step keeps, a whole conversion keeps.
-/

namespace Reckoner.Yard

/-- The four ways in which a yard accepts a token. -/
inductive Step : Yard → Token → Yard → Prop
  | write {output waiting : List Token} (anOperand : token.isOperand = true) :
      Step ⟨output, waiting⟩ token ⟨token :: output, waiting⟩
  | group {output waiting : List Token} (opens : token.kind = .lparen) :
      Step ⟨output, waiting⟩ token ⟨output, token :: waiting⟩
  /-- All that waits in the innermost group is written. -/
  | close {output popped kept : List Token} (closes : token.kind = .rparen)
      (opens : left.kind = .lparen) (shut : ∀ top ∈ popped, top.kind ≠ .lparen) :
      Step ⟨output, popped ++ left :: kept⟩ token ⟨popped.reverse ++ output, kept⟩
  /-- Written are the operators of the innermost group down to one that binds less tightly. -/
  | enter {output popped kept : List Token} (anOperator : token.kind = .operator)
      (tight : ∀ top ∈ popped, top.kind ≠ .lparen ∧ bindsTighter token.text top.text = .ok false)
      (stops : ∀ top ∈ kept.head?, top.kind = .lparen ∨ bindsTighter token.text top.text = .ok true) :
      Step ⟨output, popped ++ kept⟩ token ⟨popped.reverse ++ output, token :: kept⟩

variable {tokens output waiting : List Token} {token : Token} {yard next : Yard}

theorem enter_eq_ok (enters : enter token output waiting = .ok next) :
    ∃ popped kept, waiting = popped ++ kept ∧
      (∀ top ∈ popped, top.kind ≠ .lparen ∧ bindsTighter token.text top.text = .ok false) ∧
      (∀ top ∈ kept.head?, top.kind = .lparen ∨ bindsTighter token.text top.text = .ok true) ∧
      next = ⟨popped.reverse ++ output, token :: kept⟩ := by
  induction waiting generalizing output with
  | nil => exact ⟨[],[],rfl,by simp,by simp,(Except.ok.inj enters).symm⟩
  | cons top below ih =>
    rw [enter] at enters
    split at enters
    next opens => exact ⟨[],top :: below,rfl,by simp,by simp [opens],(Except.ok.inj enters).symm⟩
    next shut =>
      split at enters
      · cases enters
      next tighter =>
        exact ⟨[],top :: below,rfl,by simp,by simp [tighter],(Except.ok.inj enters).symm⟩
      next looser =>
        obtain ⟨popped,kept,rfl,tight,stops,rfl⟩ := ih enters
        exact ⟨top :: popped,kept,rfl,List.forall_mem_cons.mpr ⟨⟨shut,looser⟩,tight⟩,stops,by simp⟩

theorem close_eq_ok (closes : close output waiting = .ok next) :
    ∃ popped left kept, waiting = popped ++ left :: kept ∧ left.kind = .lparen ∧
      (∀ top ∈ popped, top.kind ≠ .lparen) ∧ next = ⟨popped.reverse ++ output, kept⟩ := by
  induction waiting generalizing output with
  | nil => cases closes
  | cons top below ih =>
    rw [close] at closes
    split at closes
    next opens => exact ⟨[],top,below,rfl,opens,by simp,(Except.ok.inj closes).symm⟩
    next shut =>
      obtain ⟨popped,left,kept,rfl,opens,within,rfl⟩ := ih closes
      refine ⟨top :: popped,left,kept,rfl,opens,?_,by simp⟩
      exact List.forall_mem_cons.mpr ⟨shut,within⟩

theorem step_of_accept (accepts : yard.accept token = .ok next) : Step yard token next := by
  obtain ⟨output,waiting⟩ := yard
  cases kind : token.kind with
  | identifier | integer =>
    have anOperand : token.isOperand = true := by simp [Token.isOperand,kind]
    rw [accept_operand anOperand] at accepts
    cases accepts
    exact .write anOperand
  | lparen =>
    rw [accept,kind] at accepts
    cases accepts
    exact .group kind
  | rparen =>
    rw [accept,kind] at accepts
    obtain ⟨popped,left,kept,rfl,opens,shut,rfl⟩ := close_eq_ok accepts
    exact .close kind opens shut
  | operator =>
    rw [accept,kind] at accepts
    obtain ⟨popped,kept,rfl,tight,stops,rfl⟩ := enter_eq_ok accepts
    exact .enter kind tight stops

theorem Step.accept (step : Step yard token next) : yard.accept token = .ok next := by
  cases step with
  | write anOperand => exact accept_operand anOperand _
  | group opens => rw [Yard.accept,opens]
  | close closes opens shut =>
    rw [Yard.accept,closes]
    exact close_group opens shut _ _
  | enter anOperator tight stops =>
    rw [Yard.accept,anOperator]
    exact enter_stops tight stops _

theorem accept_eq_ok_iff : yard.accept token = .ok next ↔ Step yard token next :=
  ⟨step_of_accept,Step.accept⟩

theorem acceptAll_keeps (kept : List Token → Yard → Prop)
    (accepts : yard.acceptAll tokens = .ok next) (starts : kept [] yard)
    (steps : ∀ read token, token ∈ tokens → ∀ before after, kept read before →
      Step before token after → kept (read ++ [token]) after) : kept tokens next := by
  induction tokens using List.reverseRecOn generalizing next with
  | nil =>
    cases accepts
    exact starts
  | append_singleton read token ih =>
    rw [acceptAll_append] at accepts
    obtain ⟨before,first,last⟩ := bind_eq_ok_iff.mp accepts
    rw [acceptAll_singleton] at last
    refine steps read token (by simp) before next (ih first ?_) (accept_eq_ok_iff.mp last)
    exact fun read token member => steps read token (List.mem_append_left _ member)

end Reckoner.Yard
