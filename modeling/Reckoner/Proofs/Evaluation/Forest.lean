import Reckoner.Proofs.Evaluation.Height
import Reckoner.Proofs.Evaluation.Meaning
import Reckoner.Proofs.Tree.Postorder

/-!
# Trees on the operand stack

Whatever tokens are evaluated, the values on the stack are those of trees, and the postorders of
the trees are what was read. So a value comes only from the postorder of a tree, and is the value
of that tree: `Context.evaluate_iff_orders`.
-/

namespace Reckoner

/-- The tokens are the postorder of the tree: its leaves are the operands among them, and its
inner nodes are the others. -/
structure Tree.Orders (tree : Tree) (tokens : List Token) : Prop where
  formed : tree.Formed
  spells : tree.postorder = tokens

/-- Postorders of trees one after another, and the values of the trees, that of the last one on
top. -/
inductive Context.Grown (context : Context) : List Token → List Int → Prop
  | bare : Grown context [] []
  | tree {tree : Tree} (below : Grown context front stack) (formed : tree.Formed)
      (value : tree.value context = .ok n) : Grown context (front ++ tree.postorder) (n :: stack)

/-- The failures that an evaluation may end in, whatever it is given. -/
def Failure.OfEvaluation (failure : Failure) : Prop :=
  failure.kind = .invalidExpression ∨ failure.kind = .unknownVariable ∨
    failure.kind = .arithmeticFault

variable {context : Context} {tree : Tree} {front tokens : List Token} {token : Token}
variable {stack next : List Int} {failure : Failure} {n : Int}

theorem Tree.Orders.unique {other : Tree} (orders : tree.Orders tokens)
    (others : other.Orders tokens) : other = tree :=
  postorder_injective others.formed orders.formed (others.spells.trans orders.spells.symm)

namespace Context

/-- An operand is a tree of its own, and any other token joins the last two trees. -/
theorem Grown.step (grown : Grown context front stack)
    (steps : context.step stack token = .ok next) : Grown context (front ++ [token]) next := by
  rcases step_eq_ok steps with ⟨anOperand,n,value,rfl⟩ | ⟨anOperator,b,a,rest,n,rfl,applies,rfl⟩
  · have formed : (Tree.leaf token).Formed := anOperand
    exact grown.tree formed value
  · cases grown with
    | @tree _ _ _ right grown formedRight valueRight =>
      cases grown with
      | @tree _ _ _ left grown formedLeft valueLeft =>
        have value : (Tree.node token left right).value context = .ok n := by
          rw [Tree.value,valueLeft,valueRight]
          exact applies
        have formed : (Tree.node token left right).Formed := ⟨anOperator,formedLeft,formedRight⟩
        have joined := grown.tree formed value
        simpa [Tree.postorder] using joined

theorem Grown.run (grown : Grown context front stack)
    (runs : context.run stack tokens = .ok next) : Grown context (front ++ tokens) next := by
  induction tokens generalizing front stack with
  | nil =>
    cases runs
    simpa using grown
  | cons token rest ih =>
    rw [run_cons] at runs
    obtain ⟨middle,steps,later⟩ := bind_eq_ok_iff.mp runs
    rw [List.append_cons]
    exact ih (grown.step steps) later

theorem onlyValue_eq_ok (only : onlyValue stack = .ok n) : stack = [n] := by
  match stack, only with
  | [_], rfl => rfl

theorem evaluate_eq_ok (evaluates : context.evaluate tokens = .ok n) :
    ∃ tree : Tree, tree.Orders tokens ∧ tree.value context = .ok n := by
  obtain ⟨stack,runs,only⟩ := bind_eq_ok_iff.mp evaluates
  obtain rfl := onlyValue_eq_ok only
  have grown := Grown.bare.run runs
  rw [List.nil_append] at grown
  cases grown with
  | tree below formed value =>
    cases below with
    | bare => exact ⟨_,⟨formed,rfl⟩,value⟩

theorem applyText_error {resultBits a b : Int} {text : Text}
    (fails : applyText resultBits text a b = .error failure) : failure.OfEvaluation := by
  rw [applyText] at fails
  split at fails
  next op _ =>
    have computes : Computes resultBits op a b _ := computes_iff_apply.mpr rfl
    rw [fails] at computes
    exact .inr (.inr computes.fault_kind)
  next =>
    cases fails
    exact .inl rfl

theorem step_error (fails : context.step stack token = .error failure) : failure.OfEvaluation := by
  rw [step] at fails
  split at fails
  · rcases valueOf_error (map_eq_error_iff.mp fails) with rfl | rfl
    · exact .inr (.inr rfl)
    · exact .inr (.inl rfl)
  · rw [operate.eq_def] at fails
    split at fails
    · exact applyText_error (map_eq_error_iff.mp fails)
    · cases fails
      exact .inl rfl

theorem run_error (fails : context.run stack tokens = .error failure) : failure.OfEvaluation := by
  induction tokens generalizing stack with
  | nil => cases fails
  | cons token rest ih =>
    rw [run_cons] at fails
    rcases bind_eq_error_iff.mp fails with here | ⟨middle,_,later⟩
    · exact step_error here
    · exact ih later

theorem evaluate_error (fails : context.evaluate tokens = .error failure) : failure.OfEvaluation := by
  rcases bind_eq_error_iff.mp fails with runs | ⟨stack,_,only⟩
  · exact run_error runs
  · match stack, only with
    | [], rfl | _ :: _ :: _, rfl => exact .inl rfl

theorem evaluate_iff_orders (context : Context) (tokens : List Token) :
    (∀ n, context.evaluate tokens = .ok n ↔
      ∃ tree : Tree, tree.Orders tokens ∧ tree.value context = .ok n) ∧
    (∀ tree : Tree, tree.Orders tokens → (∀ other : Tree, other.Orders tokens → other = tree) ∧
      context.evaluate tokens = tree.value context) ∧
    ((∀ tree : Tree, ¬ tree.Orders tokens) →
      ∃ failure, context.evaluate tokens = .error failure ∧ failure.OfEvaluation) := by
  have ofTree (tree : Tree) (orders : tree.Orders tokens) :
      context.evaluate tokens = tree.value context := by
    obtain ⟨formed,rfl⟩ := orders
    exact tree.evaluate_postorder context formed
  refine ⟨fun n => ⟨evaluate_eq_ok,?_⟩,fun tree orders => ?_,fun noTree => ?_⟩
  · rintro ⟨tree,orders,value⟩
    exact (ofTree tree orders).trans value
  · exact ⟨fun _ => orders.unique,ofTree tree orders⟩
  · cases outcome : context.evaluate tokens with
    | error failure => exact ⟨failure,rfl,evaluate_error outcome⟩
    | ok n =>
      obtain ⟨tree,orders,_⟩ := evaluate_eq_ok outcome
      exact absurd orders (noTree tree)

end Context
end Reckoner
