import Reckoner.Evaluation

/-!
# Syntax trees

The tree of an expression, its postorder and its value by recursion. What the conversion to
postfix order and the operand stack compute is measured by these two.
-/

namespace Reckoner

inductive Tree where
  | leaf (operand : Token)
  | node (op : Token) (left right : Tree)
  deriving DecidableEq, Repr

namespace Tree

def postorder : Tree → List Token
  | leaf operand => [operand]
  | node op left right => left.postorder ++ right.postorder ++ [op]

/-- The tokens in the order of an expression, each operator between its sides. -/
def inorder : Tree → List Token
  | leaf operand => [operand]
  | node op left right => left.inorder ++ op :: right.inorder

/-- The left side is evaluated first, then the right side, then the operator; the first
failure is the failure of the whole. -/
def value (context : Context) : Tree → Except Failure Int
  | leaf operand => context.valueOf operand
  | node op left right => do
    let a ← left.value context
    let b ← right.value context
    applyText context.resultBits op.text a b

/-- The leaves are operands and the inner nodes are none. -/
def Formed : Tree → Prop
  | leaf operand => operand.isOperand = true
  | node op left right => op.isOperand = false ∧ left.Formed ∧ right.Formed

theorem run_postorder (context : Context) {tree : Tree} (formed : tree.Formed)
    (stack : List Int) :
    context.run stack tree.postorder = (tree.value context).map (· :: stack) := by
  induction tree generalizing stack with
  | leaf operand =>
    have operandIs : operand.isOperand = true := formed
    simp only [postorder,value,Context.run,List.foldlM_cons,List.foldlM_nil,Context.step,operandIs]
    cases context.valueOf operand <;> rfl
  | node op left right ihl ihr =>
    obtain ⟨inner, fl, fr⟩ := formed
    rw [postorder,Context.run_append,Context.run_append,ihl fl]
    cases hl : left.value context with
    | error => simp [value,hl,Except.map,Except.bind,bind]
    | ok a =>
      simp only [Except.map,Except.bind,ihr fr,value,hl,bind]
      cases hr : right.value context with
      | error => rfl
      | ok b =>
        simp only [Context.run,List.foldlM_cons,List.foldlM_nil,Context.step,inner,Context.operate]
        cases applyText context.resultBits op.text a b <;> rfl

theorem evaluate_postorder (context : Context) {tree : Tree} (formed : tree.Formed) :
    context.evaluate tree.postorder = tree.value context := by
  rw [Context.evaluate,run_postorder context formed]
  cases tree.value context <;> rfl

end Tree
end Reckoner
