import Reckoner.Proofs.Calculation.Outcome
import Reckoner.Proofs.Text.Runs

/-!
# Contexts that agree

A calculation looks up the names in its text and no others. So it goes the same way, to the same
outcome with the same account, in contexts that agree on these names: `Context.Agree.report`. The
bindings of all other names are of no account: `Context.calculate_of_mentions`.
-/

namespace Reckoner

open Grammar

theorem Grammar.Parses.mem_of_mem_postorder (parses : Parses layer tokens tree) :
    ∀ token ∈ tree.postorder, token ∈ tokens := by
  induction parses with
  | operand => exact fun _ => id
  | group _ _ _ ih => exact fun token member => by simp [ih token member]
  | lift _ _ ih => exact ih
  | chain _ _ _ _ ihl ihr =>
    intro token member
    rcases List.mem_append.mp member with below | root
    · rcases List.mem_append.mp below with first | second
      · exact List.mem_append_left _ (ihl token first)
      · exact List.mem_append_right _ (List.mem_cons_of_mem _ (ihr token second))
    · obtain rfl := List.mem_singleton.mp root
      simp

theorem Stages.tokenize_of_ofText {stages : Stages} (passes : ofText text = .ok stages) :
    Token.tokenize text = .ok stages.tokens := by
  rcases ofText_cases text with ⟨tokens,_,read,_,gives⟩ | ⟨_,refused,_⟩
  · rw [gives] at passes
    cases passes
    exact read
  · rw [refused] at passes
    cases passes

/-- The same limits, and the same values of the names or none. -/
structure Context.Agree (names : List Text) (first second : Context) : Prop where
  digitLimit : first.digitLimit = second.digitLimit
  resultBits : first.resultBits = second.resultBits
  bound : ∀ name ∈ names, first.bindings.get? name = second.bindings.get? name

namespace Context.Agree

variable {names : List Text} {first second : Context} {token : Token} {tokens : List Token}

theorem valueOf (agree : Agree names first second) (anOperand : token.isOperand = true)
    (named : token.kind = .identifier → token.bare ∈ names) :
    first.valueOf token = second.valueOf token := by
  rw [Context.valueOf,Context.valueOf,magnitude,magnitude]
  rcases Token.isOperand_iff.mp anOperand with identifier | integer
  · have number : token.kind ≠ .integer := by simp [identifier]
    rw [if_neg number,if_neg number,agree.bound _ (named identifier)]
  · rw [if_pos integer,if_pos integer,agree.digitLimit]

theorem step (agree : Agree names first second)
    (named : token.kind = .identifier → token.bare ∈ names) (stack : List Int) :
    first.step stack token = second.step stack token := by
  rw [Context.step,Context.step]
  split
  next anOperand => rw [agree.valueOf anOperand named]
  next => rw [operate.eq_def,operate.eq_def,agree.resultBits]

theorem run (agree : Agree names first second)
    (named : ∀ token ∈ tokens, token.kind = .identifier → token.bare ∈ names) (stack : List Int) :
    first.run stack tokens = second.run stack tokens := by
  induction tokens generalizing stack with
  | nil => rfl
  | cons token rest ih =>
    obtain ⟨here,later⟩ := List.forall_mem_cons.mp named
    rw [Context.run,Context.run,List.foldlM_cons,List.foldlM_cons,agree.step here]
    exact congrArg _ (funext (ih later))

theorem evaluate {stages : Stages} (agree : Agree text.names first second)
    (passes : Stages.ofText text = .ok stages) :
    first.evaluate stages.ordered = second.evaluate stages.ordered := by
  obtain ⟨tree,parses,_,ordered⟩ := Stages.tree_of_ofText passes
  have read := Stages.tokenize_of_ofText passes
  have named : ∀ token ∈ stages.ordered, token.kind = .identifier → token.bare ∈ text.names := by
    intro token member
    rw [ordered] at member
    exact Token.bare_mem_names read (parses.mem_of_mem_postorder token member)
  rw [Context.evaluate,Context.evaluate,agree.run named]

theorem report (agree : Agree text.names first second) :
    first.report text = second.report text := by
  rw [Context.report,Context.report]
  cases passes : Stages.ofText text with
  | error => rfl
  | ok stages => simp only [agree.evaluate passes]

theorem calculate (agree : Agree text.names first second) :
    first.calculate text = second.calculate text := by
  rw [Context.calculate,Context.calculate]
  cases passes : Stages.ofText text with
  | error => rfl
  | ok stages => exact agree.evaluate passes

end Context.Agree

namespace Context

variable {text : Text} {first second : Bindings}

theorem calculate_of_mentions
    (same : ∀ name, text.Mentions name → first.get? name = second.get? name)
    (digitLimit : DigitLimit) (resultBits : Int) :
    calculate ⟨first,digitLimit,resultBits⟩ text = calculate ⟨second,digitLimit,resultBits⟩ text ∧
      report ⟨first,digitLimit,resultBits⟩ text = report ⟨second,digitLimit,resultBits⟩ text := by
  have agree : Agree text.names ⟨first,digitLimit,resultBits⟩ ⟨second,digitLimit,resultBits⟩ :=
    ⟨rfl,rfl,fun name member => same name (Text.mem_names_iff.mp member)⟩
  exact ⟨agree.calculate,agree.report⟩

theorem calculate_of_mentions_of_other_names :
    let text : Text := "-ab - 2 * (n ^ ab)".toList
    let first : Bindings := ⟨[("a".toList,1),("ab".toList,3),("n".toList,2)]⟩
    let second : Bindings := ⟨[("n".toList,2),("b".toList,7),("ab".toList,3)]⟩
    (∀ name, text.Mentions name → first.get? name = second.get? name) ∧
      calculate ⟨first,.atMost 9,64⟩ text = .ok (-19) ∧
      calculate ⟨second,.atMost 9,64⟩ text = .ok (-19) := by
  intro text first second
  have same : ∀ name, text.Mentions name → first.get? name = second.get? name := by
    have listed : ∀ name ∈ text.names, first.get? name = second.get? name := by decide
    exact fun name mentioned => listed name (Text.mem_names_iff.mpr mentioned)
  have value : calculate ⟨first,.atMost 9,64⟩ text = .ok (-19) := by decide +kernel
  exact ⟨same,value,(calculate_of_mentions same (.atMost 9) 64).1.symm.trans value⟩

end Context
end Reckoner
