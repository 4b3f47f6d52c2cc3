import Reckoner.Proofs.Evaluation.Meaning
import Reckoner.Proofs.Session.Containment

/-!
# Assignments

What a line does to the bindings. Only an assignment that succeeds changes them, and what it
binds is the value that its right side has before it: `Session.handle_assignment`.
-/

namespace Reckoner

open Grammar

variable {session : Session} {line name value : Text} {n : Int}

/-- The bindings that an assignment leaves. -/
def Context.rebind (context : Context) (name value : Text) : Except Failure Bindings :=
  if isIdentifier name then
    match operand? value with
    | some operand => (context.valueOf operand).bind (context.bindings.set name)
    | none => .error .invalidAssignment
  else .error .invalidIdentifier

theorem Denotes.isOperand (denotes : Denotes context token told) : token.isOperand = true := by
  cases denotes <;> rfl

theorem Token.Signed.valueOf_eq_ok_iff {context : Context} (signed : token.Signed) :
    context.valueOf token = .ok n ↔ Denotes context token (.ok n) := by
  constructor
  · intro value
    obtain ⟨sign,plain,isPlain,anOperand,rfl⟩ := signed
    obtain ⟨told,denotes⟩ := isPlain.denotes context anOperand sign
    obtain rfl : .ok n = told := by simpa [value,Except.mapError] using denotes.valueOf
    exact denotes
  · exact fun denotes => told_ok_iff.mp denotes.valueOf

theorem Context.rebind_eq_ok_iff {context : Context} {next : Bindings} :
    context.rebind name value = .ok next ↔
      isIdentifier name = true ∧ ∃ token n, Token.tokenize value = .ok [token] ∧
        Denotes context token (.ok n) ∧ next = ⟨Bindings.assign name n context.bindings.entries⟩ := by
  constructor
  · intro binds
    rw [rebind] at binds
    split at binds
    next identifier =>
      split at binds
      next token single =>
        obtain ⟨reads,anOperand⟩ := operand?_eq_some_iff.mp single
        have signed := (Token.lexed_of_tokenize reads).operand List.mem_cons_self anOperand
        obtain ⟨n,result,sets⟩ := bind_eq_ok_iff.mp binds
        refine ⟨identifier,token,n,reads,signed.valueOf_eq_ok_iff.mp result,?_⟩
        simpa [Bindings.set,identifier] using sets.symm
      next => cases binds
    next => cases binds
  · rintro ⟨identifier,token,n,reads,denotes,rfl⟩
    have single := operand?_eq_some_iff.mpr ⟨reads,denotes.isOperand⟩
    rw [rebind,if_pos identifier,single]
    simp [told_ok_iff.mp denotes.valueOf,Except.bind,Bindings.set,identifier]

namespace Session

theorem assign_eq_rebind (session : Session) (name value : Text) :
    session.assign name value =
      (session.context.rebind name value).map fun bindings => { session with bindings } := by
  rw [assign,Context.rebind]
  split
  · cases operand? value with
    | none => rfl
    | some operand =>
      dsimp only
      cases session.context.valueOf operand with
      | error => rfl
      | ok n =>
        change (session.bindings.set name n).bind _ = (session.bindings.set name n).map _
        cases session.bindings.set name n <;> rfl
  · rfl

theorem handle_assignment (assignment : Line.ofText line = .assignment name value) :
    session.handle line =
      match session.context.rebind name value with
      | .ok bindings => ({},{ session with bindings })
      | .error failure => (.fail failure [],session) := by
  rw [handle,assignment]
  simp only [assign_eq_rebind]
  cases session.context.rebind name value <;> rfl

/-- The name that a line assigns, if it is an assignment that succeeds. -/
def assignedName? (session : Session) (line : Text) : Option Text :=
  match Line.ofText line with
  | .assignment name _ => if (session.handle line).1.ok then some name else none
  | _ => none

/-- The line assigns a value to a name: the name is made of letters, and the right side is a
single operand that has this value in the bindings before the line. -/
inductive Assigns (session : Session) (line name : Text) (n : Int) : Prop
  | intro {value : Text} {operand : Token} (assignment : Line.ofText line = .assignment name value)
      (identifier : isIdentifier name = true) (single : Token.tokenize value = .ok [operand])
      (denotes : Denotes session.context operand (.ok n))

theorem Assigns.handle (assigns : session.Assigns line name n) :
    session.handle line =
      ({},{ session with bindings := ⟨Bindings.assign name n session.bindings.entries⟩ }) := by
  obtain ⟨assignment,identifier,single,denotes⟩ := assigns
  have binds := Context.rebind_eq_ok_iff.mpr ⟨identifier,_,_,single,denotes,rfl⟩
  rw [handle_assignment assignment,binds]
  rfl

theorem assignedName?_eq_some_iff :
    session.assignedName? line = some name ↔ ∃ n, session.Assigns line name n := by
  constructor
  · intro succeeds
    rw [assignedName?] at succeeds
    split at succeeds
    next other value assignment =>
      rw [handle_assignment assignment] at succeeds
      cases result : session.context.rebind other value with
      | error => simp [result,Reply.ok,Reply.fail] at succeeds
      | ok next =>
        obtain rfl : other = name := by simpa [result,Reply.ok] using succeeds
        obtain ⟨identifier,_,n,single,denotes,_⟩ := Context.rebind_eq_ok_iff.mp result
        exact ⟨n,assignment,identifier,single,denotes⟩
    next => cases succeeds
  · rintro ⟨n,assigns⟩
    have answered := assigns.handle
    obtain ⟨assignment,_,_,_⟩ := assigns
    rw [assignedName?,assignment]
    simp [answered,Reply.ok]

theorem handle_of_assignedName?_eq_none (noneAssigned : session.assignedName? line = none) :
    (session.handle line).2 = session := by
  cases kind : Line.ofText line with
  | blank | command | expression => rw [handle,kind]
  | assignment name value =>
    rw [assignedName?,kind,handle_assignment kind] at noneAssigned
    rw [handle_assignment kind]
    cases result : session.context.rebind name value with
    | error => rfl
    | ok next => simp [result,Reply.ok] at noneAssigned

end Session
end Reckoner
