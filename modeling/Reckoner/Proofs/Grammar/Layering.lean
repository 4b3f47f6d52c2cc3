import Reckoner.Grammar.Derivation

/-!
# Layers and derivations

The two grammars derive the same token lists as long as every operator token has the text of
an operator: `parses_iff_derivable`. What is derivable also passes the walk that alternates
operands and operators, and nests its groups properly.
-/

namespace Reckoner.Grammar

/-- Every operator token has the text of an operator. -/
def Named (tokens : List Token) : Prop :=
  ∀ token ∈ tokens, token.kind = .operator → ∃ op, Operator.ofText? token.text = some op

theorem Named.left (named : Named (front ++ back)) : Named front :=
  fun token member => named token (List.mem_append_left _ member)

theorem Named.right (named : Named (front ++ back)) : Named back :=
  fun token member => named token (List.mem_append_right _ member)

theorem Named.tail (named : Named (token :: tokens)) : Named tokens :=
  fun other member => named other (List.mem_cons_of_mem _ member)

namespace Layer

/-- The rank of the operators of a layer; atoms have none. -/
def level : Layer → Nat
  | sum => 4
  | product => 3
  | power => 2
  | atom => 1

@[simp] theorem level_ofOperator (op : Operator) : (ofOperator op).level = op.rank := by
  cases op <;> rfl

theorem level_injective {a b : Layer} (same : a.level = b.level) : a = b := by
  cases a <;> cases b <;> first | rfl | cases same

theorem level_tighter {layer : Layer} (loose : layer ≠ .atom) :
    layer.tighter.level + 1 = layer.level := by
  cases layer <;> first | rfl | contradiction

theorem level_le_sum (layer : Layer) : layer.level ≤ sum.level := by
  cases layer <;> simp [level]

theorem level_atom_le (layer : Layer) : atom.level ≤ layer.level := by
  cases layer <;> simp [level]

theorem level_tighter_le (layer : Layer) : layer.tighter.level ≤ layer.level := by
  cases layer <;> simp [tighter,level]

theorem ofOperator_ne_atom (op : Operator) : ofOperator op ≠ .atom := by cases op <;> decide

theorem level_tighter_ofOperator (op : Operator) : (ofOperator op).tighter.level < op.rank := by
  have step := level_tighter (ofOperator_ne_atom op)
  rw [level_ofOperator] at step
  omega

/-- The part of the plain grammar that a layer belongs to. -/
def part : Layer → Part
  | atom => .term
  | sum | product | power => .expression

theorem part_of_ne_atom {layer : Layer} (loose : layer ≠ .atom) : layer.part = .expression := by
  cases layer <;> first | rfl | contradiction

end Layer

/-- The loosest layer of a part. -/
def Part.layer : Part → Layer
  | term => .atom
  | expression => .sum

theorem Parses.loosen {inner outer : Layer} (parses : Parses inner tokens tree)
    (within : inner.level ≤ outer.level) : Parses outer tokens tree := by
  obtain ⟨steps, reach⟩ := Nat.exists_eq_add_of_le within
  induction steps generalizing outer with
  | zero => exact Layer.level_injective reach ▸ parses
  | succ steps ih =>
    have loose : outer ≠ .atom := by
      rintro rfl
      cases inner <;> simp [Layer.level] at reach <;> omega
    have step := Layer.level_tighter loose
    exact .lift loose (ih (by omega) (by omega))

theorem Parses.formed (parses : Parses layer tokens tree) : tree.Formed := by
  induction parses with
  | operand anOperand => exact anOperand
  | group _ _ _ ih | lift _ _ ih => exact ih
  | chain anOperator _ _ _ ihl ihr => exact ⟨by simp [Token.isOperand,anOperator],ihl,ihr⟩

/-- Two expressions may be linked, although the grammar links one only to a term. -/
theorem Derivable.link (first : Derivable .expression front) (anOperator : op.kind = .operator)
    (last : Derivable part back) : Derivable .expression (front ++ op :: back) := by
  induction last with
  | operand anOperand => exact .chain first anOperator (.operand anOperand)
  | group opens closes inner _ => exact .chain first anOperator (.group opens closes inner)
  | single _ ih => exact ih
  | @chain _ _ other _ isOther last ih _ =>
    rw [← List.cons_append,← List.append_assoc]
    exact .chain ih isOther last

theorem Parses.derivable (parses : Parses layer tokens tree) : Derivable layer.part tokens := by
  induction parses with
  | operand anOperand => exact .operand anOperand
  | group opens closes _ ih => exact .group opens closes ih
  | @lift layer _ _ loose _ ih =>
    rw [Layer.part_of_ne_atom loose]
    cases layer with
    | sum | product => exact ih
    | power => exact .single ih
    | atom => contradiction
  | chain anOperator _ _ _ ihl ihr =>
    rw [Layer.part_of_ne_atom (Layer.ofOperator_ne_atom _)] at ihl ⊢
    exact ihl.link anOperator ihr

theorem Parses.link_whole (first : Parses layer front left) (anOperator : token.kind = .operator)
    (names : Operator.ofText? token.text = some op) (here : op.rank = layer.level)
    (last : Parses .atom back right) : ∃ tree, Parses layer (front ++ token :: back) tree := by
  obtain rfl : Layer.ofOperator op = layer := Layer.level_injective (by simpa using here)
  exact ⟨_,.chain anOperator names first (last.loosen (Layer.level_atom_le _))⟩

/-- An operator after an expression takes as its left side the longest part before it that
binds at least as tightly. -/
theorem Parses.link (first : Parses layer front left) (anOperator : token.kind = .operator)
    (names : Operator.ofText? token.text = some op) (within : op.rank ≤ layer.level)
    (last : Parses .atom back right) : ∃ tree, Parses layer (front ++ token :: back) tree := by
  induction first with
  | operand | group => cases op <;> simp [Layer.level,Operator.rank] at within
  | lift loose tight ih =>
    rcases Nat.lt_or_eq_of_le within with below | here
    · have step := Layer.level_tighter loose
      obtain ⟨tree,parses⟩ := ih (by omega)
      exact ⟨tree,.lift loose parses⟩
    · exact Parses.link_whole (.lift loose tight) anOperator names here last
  | @chain other _ _ _ _ _ isOther others first' last' _ ih =>
    rcases Nat.lt_or_eq_of_le within with below | here
    · have step := Layer.level_tighter (Layer.ofOperator_ne_atom other)
      obtain ⟨tree,parses⟩ := ih (by omega)
      rw [List.append_assoc,List.cons_append]
      exact ⟨_,.chain isOther others first' parses⟩
    · exact Parses.link_whole (.chain isOther others first' last') anOperator names here last

theorem Derivable.parses (derivable : Derivable part tokens) (named : Named tokens) :
    ∃ tree, Parses part.layer tokens tree := by
  induction derivable with
  | operand anOperand => exact ⟨_,.operand anOperand⟩
  | group opens closes _ ih =>
    obtain ⟨tree,inner⟩ := ih named.left.tail
    exact ⟨tree,.group opens closes inner⟩
  | single _ ih =>
    obtain ⟨tree,parses⟩ := ih named
    exact ⟨tree,parses.loosen (Layer.level_le_sum _)⟩
  | chain _ anOperator _ ihf ihl =>
    obtain ⟨left,first⟩ := ihf named.left
    obtain ⟨right,last⟩ := ihl named.right.tail
    obtain ⟨op,names⟩ := named _ (by simp) anOperator
    have within : op.rank ≤ Layer.sum.level := Layer.level_ofOperator op ▸ Layer.level_le_sum _
    exact first.link anOperator names within last

theorem Parses.named (parses : Parses layer tokens tree) : Named tokens := by
  induction parses with
  | operand anOperand =>
    intro token member anOperator
    obtain rfl := List.mem_singleton.mp member
    simp [Token.isOperand,anOperator] at anOperand
  | group opens closes _ ih =>
    intro token member anOperator
    rcases List.mem_append.mp member with front | last
    · rcases List.mem_cons.mp front with rfl | inner
      · simp [opens] at anOperator
      · exact ih token inner anOperator
    · obtain rfl := List.mem_singleton.mp last
      simp [closes] at anOperator
  | lift _ _ ih => exact ih
  | chain _ names _ _ ihl ihr =>
    intro token member anOperator
    rcases List.mem_append.mp member with front | back
    · exact ihl token front anOperator
    · rcases List.mem_cons.mp back with rfl | back
      · exact ⟨_,names⟩
      · exact ihr token back anOperator

/-- The layers only order what the plain grammar derives. -/
theorem parses_iff_derivable :
    (∃ tree, Parses .sum tokens tree) ↔ Derivable .expression tokens ∧ Named tokens :=
  ⟨fun ⟨_,parses⟩ => ⟨parses.derivable,parses.named⟩,
    fun ⟨derivable,named⟩ => derivable.parses named⟩

/-- What goes on a chain: an operator, the tokens of its right side and their tree. -/
structure Link where
  op : Token
  tokens : List Token
  tree : Tree

/-- The operator is one of the layer, and its right side binds tighter. -/
def Link.Of (layer : Layer) (link : Link) : Prop :=
  link.op.kind = .operator ∧
    (∃ op, Operator.ofText? link.op.text = some op ∧ .ofOperator op = layer) ∧
    Parses layer.tighter link.tokens link.tree

/-- Every layer but that of the atoms holds the chains of the next one, whose trees are built
from the left. -/
theorem parses_iff_chain (loose : layer ≠ .atom) :
    Parses layer tokens tree ↔ ∃ front first, ∃ links : List Link,
      Parses layer.tighter front first ∧ (∀ link ∈ links, link.Of layer) ∧
      tokens = front ++ links.flatMap (fun link => link.op :: link.tokens) ∧
      tree = links.foldl (fun left link => .node link.op left link.tree) first := by
  constructor
  · intro parses
    induction parses with
    | operand | group => contradiction
    | lift _ tight _ => exact ⟨_,_,[],tight,by simp,by simp,rfl⟩
    | @chain op _ _ back right token anOperator names _ last ih _ =>
      obtain ⟨front,first,links,start,follow,rfl,rfl⟩ := ih loose
      refine ⟨front,first,links ++ [⟨token,back,right⟩],start,?_,by simp,by simp⟩
      intro link member
      rcases List.mem_append.mp member with member | member
      · exact follow link member
      · obtain rfl := List.mem_singleton.mp member
        exact ⟨anOperator,⟨op,names,rfl⟩,last⟩
  · rintro ⟨front,first,links,start,follow,rfl,rfl⟩
    have begun := Parses.lift loose start
    clear start
    induction links generalizing front first with
    | nil => simpa using begun
    | cons link links ih =>
      obtain ⟨⟨anOperator,⟨op,names,rfl⟩,last⟩,later⟩ := List.forall_mem_cons.mp follow
      simpa using ih _ _ later (.chain anOperator names begun last)

end Reckoner.Grammar
