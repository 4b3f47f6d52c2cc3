import Reckoner.Proofs.Calculation.Respelling
import Reckoner.Proofs.Line.Operand
import Reckoner.Proofs.Session.Assignment

/-!
# Right sides of assignments

An assignment is checked in a fixed order: its name, the form of its right side, the name or the
number that stands there. Each check alone decides its refusal, and what passes them all binds the
value of the word, negated once for each minus on the right side: `Session.handle_judged`.
-/

namespace Reckoner

open Grammar

variable {session : Session} {context : Context} {line name side front text lead word trail : Text}
  {kind : Token.Kind} {token : Token} {failure : Failure}

/-- The failures of an assignment. -/
def Failure.ofAssignment : List Failure :=
  [.invalidIdentifier,.invalidAssignment,.numberTooLong,.unknownVariable]

theorem Failure.eq_of_kind :
    ∀ failure ∈ ofAssignment, ∀ other ∈ ofAssignment, failure.kind = other.kind → failure = other := by
  decide

theorem Token.Plain.valueOf_withSign (context : Context) (plain : Plain token)
    (anOperand : token.isOperand = true) (sign : Option Sign) :
    context.valueOf (token.withSign sign) =
      (context.valueOf token).map (sign.getD .plus).apply := by
  have unsigned : token.sign = .plus := plain.sign_withSign anOperand none
  have same : context.magnitude (token.withSign sign) = context.magnitude token := by
    have bare : token.bare = token.text := plain.bare_withSign anOperand none
    rw [Context.magnitude,Context.magnitude,plain.bare_withSign anOperand,bare,withSign_kind]
  rw [Context.valueOf,Context.valueOf,plain.sign_withSign anOperand,unsigned,same]
  cases context.magnitude token <;> rfl

namespace Grammar.SignedWord

theorem count_minus (signed : SignedWord text kind lead word trail) :
    text.count '-' = lead.count '-' := by
  have inWord : word.count '-' = 0 := by
    refine List.count_eq_zero.mpr fun member => ?_
    cases signed.plain.unsigned signed.isOperand '-' member
  have inTrail : trail.count '-' = 0 := by
    refine List.count_eq_zero.mpr fun member => ?_
    cases signed.blanks '-' member
  simp [signed.split,inWord,inTrail]

theorem valueOf (context : Context) (signed : SignedWord text kind lead word trail) :
    context.valueOf (Token.withSign (Sign.ofRun? lead) ⟨kind,word⟩) =
      (context.valueOf ⟨kind,word⟩).map ((-1) ^ text.count '-' * ·) := by
  have negates : ((Sign.ofRun? lead).getD .plus).apply = ((-1) ^ text.count '-' * ·) := by
    funext n
    rw [Sign.getD_ofRun?,Sign.apply_parity,signed.count_minus]
  rw [signed.plain.valueOf_withSign context signed.isOperand,negates]

theorem valueOf_error_iff (context : Context) (signed : SignedWord text kind lead word trail) :
    (context.valueOf ⟨kind,word⟩ = .error .unknownVariable ↔
      kind = .identifier ∧ context.bindings.get? word = none) ∧
    (context.valueOf ⟨kind,word⟩ = .error .numberTooLong ↔
      kind = .integer ∧ context.digitLimit.admits word.length = false) := by
  rcases signed.kinds with rfl | rfl
  · have value : context.valueOf ⟨.identifier,word⟩ = _ :=
      context.valueOf_identifier none signed.someChar signed.all
    rw [value]
    cases context.bindings.get? word <;> simp
  · have value : context.valueOf ⟨.integer,word⟩ = _ :=
      context.valueOf_integer none signed.someChar signed.all
    rw [value]
    cases context.digitLimit.admits word.length <;> simp

end Grammar.SignedWord

namespace Context

theorem rebind_strip (context : Context) (name side : Text) :
    context.rebind name side.strip = context.rebind name side := by
  rw [rebind,rebind,operand?,operand?,Token.tokenize_strip]

/-- With a name and an operand an assignment can fail in the value of the operand only. -/
theorem rebind_of_operand (context : Context) (identifier : isIdentifier name = true)
    (single : operand? side = some token) :
    context.rebind name side = (context.valueOf token).map fun n =>
      ⟨Bindings.assign name n context.bindings.entries⟩ := by
  rw [rebind,if_pos identifier,single]
  dsimp only
  cases context.valueOf token with
  | error => rfl
  | ok n => exact if_pos identifier

theorem rebind_of_word (context : Context) (identifier : isIdentifier name = true)
    (signed : SignedWord side kind lead word trail) :
    context.rebind name side = (context.valueOf ⟨kind,word⟩).map fun n =>
      ⟨Bindings.assign name ((-1) ^ side.count '-' * n) context.bindings.entries⟩ := by
  have single := operand?_eq_some_iff.mpr ⟨signed.tokenize,signed.isOperand⟩
  rw [context.rebind_of_operand identifier single,signed.valueOf context]
  cases context.valueOf ⟨kind,word⟩ <;> rfl

theorem rebind_eq_misnamed_iff :
    context.rebind name side = .error .invalidIdentifier ↔ isIdentifier name = false := by
  constructor
  · intro fails
    by_contra named
    have identifier : isIdentifier name = true := by simpa using named
    cases single : operand? side with
    | none =>
      rw [rebind,if_pos identifier,single] at fails
      cases fails
    | some operand =>
      rw [context.rebind_of_operand identifier single,map_eq_error_iff] at fails
      rcases valueOf_error fails with other | other <;> cases other
  · intro other
    rw [rebind,if_neg (by simp [other])]

theorem rebind_eq_malformed_iff (identifier : isIdentifier name = true) :
    context.rebind name side = .error .invalidAssignment ↔ side ∉ operandTexts := by
  constructor
  · intro fails member
    obtain ⟨kind,lead,word,trail,signed⟩ := mem_operandTexts_iff.mp member
    rw [context.rebind_of_word identifier signed,map_eq_error_iff] at fails
    rcases valueOf_error fails with other | other <;> cases other
  · rw [← isOperand_iff_mem_operandTexts]
    intro malformed
    have noOperand : operand? side = none := by simpa [isOperand] using malformed
    rw [rebind,if_pos identifier,noOperand]

end Context

namespace Session

theorem handle_divided (apart : ∀ c ∈ front, c ≠ '=')
    (noCommand : ∀ c ∈ (front ++ '=' :: side).strip.head?, c ≠ '/') :
    session.handle (front ++ '=' :: side) =
      match session.context.rebind front.strip side with
      | .ok bindings => ({},{ session with bindings })
      | .error failure => (.fail failure [],session) := by
  have same := session.context.rebind_strip front.strip side
  rw [handle_assignment (Line.ofText_assignment apart noCommand)]
  cases result : session.context.rebind front.strip side <;> simp [same,result]

theorem rebind_error (fails : session.context.rebind name side = .error failure) :
    failure ∈ Failure.ofAssignment := by
  have refused : session.assign name side = .error failure := by
    rw [assign_eq_rebind,fails]
    rfl
  rcases assign_error refused with ⟨rfl,_⟩ | rfl | rfl | rfl <;> decide

theorem map_failure_iff {α : Type} {view : Failure → α}
    (answers : ∀ other, (session.handle line).1.failure = some other ↔
      session.context.rebind name side = .error other)
    (apart : ∀ failure ∈ Failure.ofAssignment, ∀ other ∈ Failure.ofAssignment,
      view failure = view other → failure = other) (member : failure ∈ Failure.ofAssignment) :
    (session.handle line).1.failure.map view = some (view failure) ↔
      session.context.rebind name side = .error failure := by
  rw [Option.map_eq_some_iff]
  constructor
  · rintro ⟨other,answered,same⟩
    have fails := (answers other).mp answered
    rwa [apart other (rebind_error fails) failure member same] at fails
  · intro fails
    exact ⟨failure,(answers failure).mpr fails,rfl⟩

/-- How a line that divides into a name and a right side is answered: the first check that fails
refuses it, and if none does, the name is bound. -/
structure Judged (session : Session) (line name side : Text) : Prop where
  misnamed : (session.handle line).1.failure.map Failure.kind = some .invalidIdentifier ↔
    ¬ (name ≠ [] ∧ ∀ c ∈ name, c.isAlpha = true)
  malformed : isIdentifier name = true →
    ((session.handle line).1.failure.map Failure.kind = some .invalidAssignment ↔
      side ∉ operandTexts)
  /-- In particular a second equals sign is refused. -/
  repeated : isIdentifier name = true → '=' ∈ side →
    (session.handle line).1.failure = some .invalidAssignment
  unbound : isIdentifier name = true → ∀ kind lead word trail, SignedWord side kind lead word trail →
    ((session.handle line).1.failure.map Failure.kind = some .unknownVariable ↔
      kind = .identifier ∧ session.bindings.get? word = none)
  overlong : isIdentifier name = true → ∀ kind lead word trail, SignedWord side kind lead word trail →
    ((session.handle line).1.failure.map Failure.told =
        some (.arithmeticFault,"Number too long".toList) ↔
      kind = .integer ∧ session.digitLimit.admits word.length = false)
  /-- A refusal is answered by its message and changes nothing. -/
  refused : ∀ failure, (session.handle line).1.failure = some failure →
    session.handle line = (.fail failure [],session)
  /-- What is bound is answered by nothing, and no other name gets another value. -/
  bound : isIdentifier name = true → ∀ kind lead word trail, SignedWord side kind lead word trail →
    ¬ (kind = .identifier ∧ session.bindings.get? word = none) →
    ¬ (kind = .integer ∧ session.digitLimit.admits word.length = false) →
    ∃ n bindings, Denotes session.context ⟨kind,word⟩ (.ok n) ∧
      session.handle line = ({},{ session with bindings }) ∧
      ∀ other, bindings.get? other =
        if other = name then some ((-1) ^ side.count '-' * n) else session.bindings.get? other

/-- Whatever is bound, a line that divides at an equals sign is judged by what stands on both sides
of the first one. -/
theorem handle_judged (session : Session) {line front side : Text} (divides : line = front ++ '=' :: side)
    (apart : ∀ c ∈ front, c ≠ '=') (noCommand : ∀ c ∈ line.strip.head?, c ≠ '/') :
    session.Judged line front.strip side := by
  subst divides
  have handles := session.handle_divided apart noCommand
  have answers : ∀ failure, (session.handle (front ++ '=' :: side)).1.failure = some failure ↔
      session.context.rebind front.strip side = .error failure := by
    intro failure
    rw [handles]
    cases session.context.rebind front.strip side <;> simp [Reply.fail]
  refine ⟨?misnamed,?malformed,?repeated,?unbound,?overlong,?refused,?bound⟩
  case misnamed =>
    rw [← isIdentifier_iff,Bool.not_eq_true,← session.context.rebind_eq_misnamed_iff]
    have member : Failure.invalidIdentifier ∈ Failure.ofAssignment := by decide
    exact map_failure_iff answers Failure.eq_of_kind member
  case malformed =>
    intro identifier
    rw [← session.context.rebind_eq_malformed_iff identifier]
    have member : Failure.invalidAssignment ∈ Failure.ofAssignment := by decide
    exact map_failure_iff answers Failure.eq_of_kind member
  case repeated =>
    intro identifier equals
    refine (answers _).mpr ((session.context.rebind_eq_malformed_iff identifier).mpr fun member => ?_)
    obtain ⟨_,_,_,_,signed⟩ := mem_operandTexts_iff.mp member
    exact (signed.belongs '=' equals).ne.2.1 rfl
  case unbound =>
    intro identifier kind lead word trail signed
    refine Iff.trans ?_ (signed.valueOf_error_iff session.context).1
    rw [← map_eq_error_iff,← session.context.rebind_of_word identifier signed]
    have member : Failure.unknownVariable ∈ Failure.ofAssignment := by decide
    exact map_failure_iff answers Failure.eq_of_kind member
  case overlong =>
    intro identifier kind lead word trail signed
    refine Iff.trans ?_ (signed.valueOf_error_iff session.context).2
    rw [← map_eq_error_iff,← session.context.rebind_of_word identifier signed]
    have member : Failure.numberTooLong ∈ Failure.ofAssignment := by decide
    have apart : ∀ failure ∈ Failure.ofAssignment, ∀ other ∈ Failure.ofAssignment,
        failure.told = other.told → failure = other :=
      fun failure one other two same => Failure.eq_of_kind failure one other two (congrArg Prod.fst same)
    exact map_failure_iff answers apart member
  case refused =>
    intro failure refused
    rw [handles,(answers failure).mp refused]
  case bound =>
    intro identifier kind lead word trail signed isBound admitted
    cases result : session.context.valueOf ⟨kind,word⟩ with
    | error failure =>
      rcases Context.valueOf_error result with rfl | rfl
      · exact absurd ((signed.valueOf_error_iff session.context).2.mp result) admitted
      · exact absurd ((signed.valueOf_error_iff session.context).1.mp result) isBound
    | ok n =>
      have isSigned : Token.Signed ⟨kind,word⟩ := ⟨none,_,signed.plain,signed.isOperand,rfl⟩
      rw [handles,session.context.rebind_of_word identifier signed,result]
      refine ⟨n,_,isSigned.valueOf_eq_ok_iff.mp result,rfl,fun other => ?_⟩
      exact Bindings.lookup_assign front.strip other _ session.bindings.entries

theorem handle_judged_of_signs :
    let session : Session := { bindings := ⟨[("n".toList,-12)]⟩, digitLimit := .atMost 3 }
    let line : Text := " n =\t- + -\n-n ".toList
    line = " n ".toList ++ '=' :: "\t- + -\n-n ".toList ∧ (∀ c ∈ " n ".toList, c ≠ '=') ∧
      (∀ c ∈ line.strip.head?, c ≠ '/') ∧
      session.Judged line (Text.strip " n ".toList) "\t- + -\n-n ".toList := by
  intro session line
  have divides : line = " n ".toList ++ '=' :: "\t- + -\n-n ".toList := rfl
  have apart : ∀ c ∈ " n ".toList, c ≠ '=' := by simp
  have starts : line.strip.head? = some 'n' := rfl
  have noCommand : ∀ c ∈ line.strip.head?, c ≠ '/' := by simp [starts]
  exact ⟨divides,apart,noCommand,session.handle_judged divides apart noCommand⟩

end Session
end Reckoner
