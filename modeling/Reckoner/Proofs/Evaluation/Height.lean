import Mathlib.Tactic.Common
import Reckoner.Tree

/-!
# The height of the operand stack

How many values are on the operand stack depends on the tokens alone. A postorder leaves one
value more than it finds, and each of its operators finds two.
-/

namespace Reckoner

/-- The height that tokens leave, unless an operator finds fewer than two values. -/
def height (before : Nat) : List Token → Option Nat
  | [] => some before
  | token :: rest =>
    if token.isOperand then height (before + 1) rest
    else if 2 ≤ before then height (before - 1) rest
    else none

theorem height_append (before : Nat) (front back : List Token) :
    height before (front ++ back) = (height before front).bind (height · back) := by
  induction front generalizing before with
  | nil => rfl
  | cons token front ih =>
    rw [List.cons_append,height,height]
    split
    · exact ih (before + 1)
    · split
      · exact ih (before - 1)
      · rfl

theorem Tree.height_postorder {tree : Tree} (formed : tree.Formed) (before : Nat) :
    height before tree.postorder = some (before + 1) := by
  induction tree generalizing before with
  | leaf operand =>
    have anOperand : operand.isOperand = true := formed
    simp [postorder,height,anOperand]
  | node op left right ihl ihr =>
    obtain ⟨inner,formedLeft,formedRight⟩ := formed
    rw [postorder,height_append,height_append,ihl formedLeft,Option.bind_some,ihr formedRight]
    simp [height,inner]

theorem height_before_operator {front back : List Token} {token : Token}
    (holds : height before (front ++ token :: back) = some after)
    (anOperator : token.isOperand = false) :
    ∃ found, height before front = some found ∧ 2 ≤ found := by
  rw [height_append] at holds
  obtain ⟨found,reaches,continues⟩ := Option.bind_eq_some_iff.mp holds
  refine ⟨found,reaches,?_⟩
  by_contra few
  simp [height,anOperator,few] at continues

namespace Context

variable {context : Context} {stack next : List Int} {token : Token}

theorem step_eq_ok (steps : context.step stack token = .ok next) :
    (token.isOperand = true ∧ ∃ n, context.valueOf token = .ok n ∧ next = n :: stack) ∨
    (token.isOperand = false ∧ ∃ right left rest n, stack = right :: left :: rest ∧
      applyText context.resultBits token.text left right = .ok n ∧ next = n :: rest) := by
  rw [step] at steps
  split at steps
  next anOperand =>
    obtain ⟨n,value,rfl⟩ := map_eq_ok_iff.mp steps
    exact .inl ⟨anOperand,n,value,rfl⟩
  next anOperator =>
    rw [operate.eq_def] at steps
    split at steps
    next right left rest =>
      obtain ⟨n,applies,rfl⟩ := map_eq_ok_iff.mp steps
      exact .inr ⟨by simpa using anOperator,right,left,rest,n,rfl,applies,rfl⟩
    next => cases steps

theorem run_cons (context : Context) (stack : List Int) (token : Token) (rest : List Token) :
    context.run stack (token :: rest) = (context.step stack token).bind (context.run · rest) := by
  simp [run,bind]

theorem run_height {tokens : List Token} (runs : context.run stack tokens = .ok next) :
    height stack.length tokens = some next.length := by
  induction tokens generalizing stack with
  | nil => cases runs; rfl
  | cons token rest ih =>
    rw [run_cons] at runs
    obtain ⟨middle,steps,later⟩ := bind_eq_ok_iff.mp runs
    have heights := ih later
    rcases step_eq_ok steps with ⟨anOperand,_,_,rfl⟩ | ⟨anOperator,_,_,_,_,rfl,_,rfl⟩
    · rw [height,if_pos anOperand]
      exact heights
    · simpa [height,anOperator] using heights

end Context
end Reckoner
