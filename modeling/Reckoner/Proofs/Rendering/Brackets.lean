import Reckoner.Proofs.Postfix.Conversion
import Reckoner.Proofs.Token.Reading

/-!
# Brackets

A tree is written with parentheses at least around those sides of an operator that would not
be grouped as the tree has them. What is written so parses to the tree, however many more
parentheses there are.
-/

namespace Reckoner

namespace Tree

/-- The operator at the root, unless the tree is a leaf. -/
def root? : Tree → Option Operator
  | leaf _ => none
  | node op _ _ => Operator.ofText? op.text

/-- A tree with a sign, or none, in front of its first leaf. -/
def withSign (sign : Option Sign) : Tree → Tree
  | leaf operand => .leaf (operand.withSign sign)
  | node op left right => .node op (left.withSign sign) right

@[simp] theorem withSign_none (tree : Tree) : tree.withSign none = tree := by
  induction tree with
  | leaf => rfl
  | node op left right ihl => rw [withSign,ihl]

end Tree

namespace Grammar

/-- The tree is written as the tokens, in parentheses or not. -/
inductive Written : (wrapped : Bool) → Tree → List Token → Prop
  | leaf (plain : Token.Plain token) (anOperand : token.isOperand = true) :
      Written false (.leaf token) [token]
  | node {op : Operator} {leftWrapped rightWrapped : Bool}
      (first : Written leftWrapped left front)
      (last : Written rightWrapped right back)
      (looser : ∀ inner, left.root? = some inner → op.rank < inner.rank → leftWrapped = true)
      (noTighter : ∀ inner, right.root? = some inner → op.rank ≤ inner.rank →
        rightWrapped = true) :
      Written false (.node op.token left right) (front ++ op.token :: back)
  | wrap {wrapped : Bool} (inner : Written wrapped tree tokens) :
      Written true tree (⟨.lparen,['(']⟩ :: tokens ++ [⟨.rparen,[')']⟩])

/-- The layer from which a written tree derives. -/
def Layer.ofRoot? : Bool → Option Operator → Layer
  | false, some op => ofOperator op
  | false, none | true, _ => atom

theorem Layer.level_ofRoot?_le {wrapped : Bool} {root : Option Operator} {bound : Nat}
    (someLevel : 1 ≤ bound)
    (within : ∀ inner, root = some inner → bound < inner.rank → wrapped = true) :
    (Layer.ofRoot? wrapped root).level ≤ bound := by
  cases wrapped with
  | true => exact someLevel
  | false =>
    cases root with
    | none => exact someLevel
    | some inner =>
      rw [Layer.ofRoot?,Layer.level_ofOperator]
      by_contra beyond
      cases within inner rfl (by omega)

theorem Written.parses {wrapped : Bool} (written : Written wrapped tree tokens) :
    Parses (Layer.ofRoot? wrapped tree.root?) tokens tree := by
  induction written with
  | leaf _ anOperand => exact .operand anOperand
  | @node left front right back op _ _ _ _ looser noTighter ihl ihr =>
    have names : Operator.ofText? op.token.text = some op := Operator.ofText?_text op
    have positive : 2 ≤ op.rank := by cases op <;> simp [Operator.rank]
    have step := Layer.level_tighter (Layer.ofOperator_ne_atom op)
    rw [Layer.level_ofOperator] at step
    have first : Parses (.ofOperator op) front left := by
      apply ihl.loosen
      rw [Layer.level_ofOperator]
      exact Layer.level_ofRoot?_le (by omega) looser
    have last : Parses (Layer.ofOperator op).tighter back right :=
      ihr.loosen (Layer.level_ofRoot?_le (by omega) fun inner root beyond =>
        noTighter inner root (by omega))
    rw [Tree.root?,names]
    exact .chain rfl names first last
  | wrap _ ih => exact .group rfl rfl (ih.loosen (Layer.level_le_sum _))

theorem Parses.ne_nil (parses : Parses layer tokens tree) : tokens ≠ [] := by
  induction parses with
  | operand | group | chain => simp
  | lift _ _ ih => exact ih

theorem Parses.withSign (sign : Option Sign) (parses : Parses layer tokens tree)
    (starts : tokens = first :: rest) (anOperand : first.isOperand = true) :
    Parses layer (first.withSign sign :: rest) (tree.withSign sign) := by
  induction parses generalizing rest with
  | operand _ =>
    cases starts
    exact .operand anOperand
  | group opens =>
    cases starts
    simp [Token.isOperand,opens] at anOperand
  | lift loose _ ih => exact .lift loose (ih starts)
  | @chain token op front left back right anOperator names before last ih _ =>
    obtain ⟨head,later,rfl⟩ := List.exists_cons_of_ne_nil before.ne_nil
    cases starts
    exact .chain anOperator names (ih rfl) last

theorem Written.plain {wrapped : Bool} (written : Written wrapped tree tokens) :
    ∀ token ∈ tokens, Token.Plain token := by
  induction written with
  | leaf plain => exact List.forall_mem_singleton.mpr plain
  | @node _ _ _ _ op _ _ _ _ _ _ ihl ihr =>
    exact List.forall_mem_append.mpr ⟨ihl,List.forall_mem_cons.mpr ⟨.operator op,ihr⟩⟩
  | wrap _ ih =>
    have opened := List.forall_mem_cons.mpr ⟨Token.Plain.lparen,ih⟩
    exact List.forall_mem_append.mpr ⟨opened,List.forall_mem_singleton.mpr .rparen⟩

end Grammar
end Reckoner
