import Reckoner.Proofs.Calculation.Agreement
import Reckoner.Proofs.Session.Assignment

/-!
# Independent lines

A line looks up the names that it mentions and binds at most the one that it assigns. So the order
of two lines does not matter if neither of them assigns a name that the other one mentions or
assigns: `Session.handle_independent`.
-/

namespace Reckoner

open Grammar

namespace Line

/-- The names that a line may look up. -/
def reads : Line → List Text
  | assignment _ value => value.names
  | expression text => text.names
  | blank | command _ => []

/-- The one name that a line may bind. -/
def writes? : Line → Option Text
  | assignment name _ => if isIdentifier name then some name else none
  | blank | command _ | expression _ => none

/-- Neither line binds a name that the other one looks up or binds. -/
structure Independent (first second : Line) : Prop where
  apart : ∀ name ∈ first.writes?, name ∉ second.writes?
  firstUnread : ∀ name ∈ first.writes?, name ∉ second.reads
  secondUnread : ∀ name ∈ second.writes?, name ∉ first.reads

end Line

namespace Session

variable {names : List Text} {session first second : Session} {line other name : Text}
  {binding? other? : Option (Text × Int)}

/-- The session in which one more entry is bound, or none. -/
def update (session : Session) : Option (Text × Int) → Session
  | none => session
  | some entry =>
    { session with bindings := ⟨Bindings.assign entry.1 entry.2 session.bindings.entries⟩ }

theorem get?_update (session : Session) (entry : Text × Int) (name : Text) :
    (session.update (some entry)).bindings.get? name =
      if name = entry.1 then some entry.2 else session.bindings.get? name :=
  Bindings.lookup_assign entry.1 name entry.2 session.bindings.entries

theorem get?_update_comm (apart : ∀ entry ∈ binding?, ∀ other ∈ other?, entry.1 ≠ other.1)
    (name : Text) : ((session.update binding?).update other?).bindings.get? name =
      ((session.update other?).update binding?).bindings.get? name := by
  cases binding? with
  | none => rfl
  | some entry =>
    cases other? with
    | none => rfl
    | some other =>
      have differ := apart entry rfl other rfl
      rw [get?_update,get?_update,get?_update,get?_update]
      by_cases here : name = entry.1
      · subst here
        simp [differ]
      · simp [here]

/-- The same settings and limits, and the same values of the names or none. -/
structure Agree (names : List Text) (first second : Session) : Prop where
  settings : first.settings = second.settings
  digitLimit : first.digitLimit = second.digitLimit
  bound : ∀ name ∈ names, first.bindings.get? name = second.bindings.get? name

namespace Agree

theorem context (agree : Agree names first second) :
    Context.Agree names first.context second.context :=
  ⟨agree.digitLimit,congrArg Settings.resultBits agree.settings,agree.bound⟩

theorem replyToExpression {text : Text} (agree : Agree text.names first second) :
    first.replyToExpression text = second.replyToExpression text := by
  simp only [Session.replyToExpression,← Context.report_outcome,agree.context.report,
    agree.settings,answer,agree.digitLimit]

/-- The checks of an assignment do not depend on the bindings, and its operand has one value. -/
theorem handle_assignment {value : Text} (agree : Agree value.names first second)
    (assignment : Line.ofText line = .assignment name value) :
    ∃ reply binding?, first.handle line = (reply,first.update binding?) ∧
      second.handle line = (reply,second.update binding?) ∧
      ∀ entry ∈ binding?, isIdentifier name = true ∧ entry.1 = name := by
  rw [Session.handle_assignment assignment,Session.handle_assignment assignment]
  simp only [Context.rebind]
  by_cases identifier : isIdentifier name = true
  · rw [if_pos identifier,if_pos identifier]
    cases single : operand? value with
    | none => exact ⟨.fail .invalidAssignment [],none,rfl,rfl,by simp⟩
    | some operand =>
      obtain ⟨read,anOperand⟩ := operand?_eq_some_iff.mp single
      have named := Token.bare_mem_names read List.mem_cons_self
      simp only [agree.context.valueOf anOperand named]
      cases second.context.valueOf operand with
      | error failure => exact ⟨.fail failure [],none,rfl,rfl,by simp⟩
      | ok n =>
        refine ⟨{},some (name,n),?_,?_,by simp [identifier]⟩
        all_goals simp [Except.bind,Bindings.set,identifier,update,Session.context]
  · rw [if_neg identifier,if_neg identifier]
    exact ⟨.fail .invalidIdentifier [],none,rfl,rfl,by simp⟩

theorem handle (agree : Agree (Line.ofText line).reads first second) :
    ∃ reply binding?, first.handle line = (reply,first.update binding?) ∧
      second.handle line = (reply,second.update binding?) ∧
      ∀ entry ∈ binding?, entry.1 ∈ (Line.ofText line).writes? := by
  cases kind : Line.ofText line with
  | blank =>
    simp only [Session.handle,kind]
    exact ⟨{},none,rfl,rfl,by simp⟩
  | command text =>
    simp only [Session.handle,kind]
    exact ⟨Command.replyTo text,none,rfl,rfl,by simp⟩
  | expression text =>
    rw [kind] at agree
    simp only [Session.handle,kind,agree.replyToExpression]
    exact ⟨second.replyToExpression text,none,rfl,rfl,by simp⟩
  | assignment name value =>
    rw [kind] at agree
    obtain ⟨reply,binding?,one,two,writes⟩ := agree.handle_assignment kind
    refine ⟨reply,binding?,one,two,fun entry bound => ?_⟩
    obtain ⟨identifier,rfl⟩ := writes entry bound
    simp [Line.writes?,identifier]

end Agree

theorem agree_handle (unwritten : ∀ name ∈ (Line.ofText line).writes?, name ∉ names) :
    Agree names session (session.handle line).2 := by
  have same : Agree (Line.ofText line).reads session session := ⟨rfl,rfl,fun _ _ => rfl⟩
  obtain ⟨reply,binding?,handles,_,written⟩ := same.handle
  rw [handles]
  cases binding? with
  | none => exact ⟨rfl,rfl,fun _ _ => rfl⟩
  | some entry =>
    refine ⟨rfl,rfl,fun name member => ?_⟩
    have apart : name ≠ entry.1 := by
      rintro rfl
      exact unwritten _ (written entry rfl) member
    rw [get?_update,if_neg apart]

theorem handle_independent (session : Session)
    (independent : (Line.ofText line).Independent (Line.ofText other)) :
    (session.handle line).1 = ((session.handle other).2.handle line).1 ∧
    ((session.handle line).2.handle other).1 = (session.handle other).1 ∧
    ∀ name, ((session.handle line).2.handle other).2.bindings.get? name =
      ((session.handle other).2.handle line).2.bindings.get? name := by
  have lineAgrees : Agree (Line.ofText line).reads session (session.handle other).2 :=
    agree_handle independent.secondUnread
  have otherAgrees : Agree (Line.ofText other).reads session (session.handle line).2 :=
    agree_handle independent.firstUnread
  obtain ⟨reply,binding?,lineFirst,lineSecond,lineWrites⟩ := lineAgrees.handle
  obtain ⟨answer,other?,otherFirst,otherSecond,otherWrites⟩ := otherAgrees.handle
  have apart : ∀ entry ∈ binding?, ∀ other ∈ other?, entry.1 ≠ other.1 := by
    intro entry bound otherEntry otherBound same
    apply independent.apart _ (lineWrites entry bound)
    rw [same]
    exact otherWrites otherEntry otherBound
  rw [lineSecond,otherSecond,lineFirst,otherFirst]
  exact ⟨rfl,rfl,get?_update_comm apart⟩

theorem handle_independent_of_mentions :
    let session : Session := { bindings := ⟨[("ab".toList,5),("b".toList,3)]⟩ }
    let line := " a = - -ab ".toList
    let other := "b = ab".toList
    (Line.ofText line).Independent (Line.ofText other) ∧
    (session.handle line).1 = ((session.handle other).2.handle line).1 ∧
    ((session.handle line).2.handle other).1 = (session.handle other).1 ∧
    ∀ name, ((session.handle line).2.handle other).2.bindings.get? name =
      ((session.handle other).2.handle line).2.bindings.get? name := by
  intro session line other
  have independent : (Line.ofText line).Independent (Line.ofText other) :=
    ⟨by decide,by decide,by decide⟩
  exact ⟨independent,handle_independent session independent⟩

end Session
end Reckoner
