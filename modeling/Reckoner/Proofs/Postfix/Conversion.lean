import Reckoner.Postfix
import Reckoner.Proofs.Grammar.Layering

/-!
# Conversion to postfix order

A yard that accepts the tokens of a tree writes out the postorder of the tree but for the
operators that still wait, and these bind at least as tightly as the layer of the tokens:
`Grammar.Parses.acceptAll`. So the conversion of an expression is the postorder of its tree,
which no other tree has.
-/

namespace Reckoner

def Operator.token (op : Operator) : Token := ⟨.operator,op.text⟩

theorem Token.eq_operator_token {token : Token} {op : Operator} (anOperator : token.kind = .operator)
    (names : Operator.ofText? token.text = some op) : token = op.token := by
  obtain ⟨kind,text⟩ := token
  rw [Operator.ofText?_eq_some_iff] at names
  rw [Operator.token,← names,← anOperator]

theorem rank?_of_names {text : Text} {op : Operator} (names : Operator.ofText? text = some op) :
    rank? text = some op.rank := by
  rw [Operator.ofText?_eq_some_iff] at names
  subst names
  cases op <;> rfl

theorem bindsTighter_of_ranks {first second : Text} {a b : Nat} (one : rank? first = some a)
    (two : rank? second = some b) : bindsTighter first second = .ok (decide (a < b)) := by
  simp only [bindsTighter,rankOf,one,two]
  rfl

theorem bindsTighter_of_names {first second : Text} {a b : Operator}
    (one : Operator.ofText? first = some a) (two : Operator.ofText? second = some b) :
    bindsTighter first second = .ok (decide (a.rank < b.rank)) :=
  bindsTighter_of_ranks (rank?_of_names one) (rank?_of_names two)

namespace Yard

open Grammar

/-- Operators that an operator of the layer writes out. -/
def Pending (layer : Layer) (waiting : List Token) : Prop :=
  ∀ token ∈ waiting, token.kind ≠ .lparen ∧
    ∃ op, Operator.ofText? token.text = some op ∧ op.rank ≤ layer.level

/-- What waits below is not written out by an operator of the layer. -/
def Guarded (layer : Layer) (waiting : List Token) : Prop :=
  ∀ top ∈ waiting.head?, top.kind = .lparen ∨
    ∃ op, Operator.ofText? top.text = some op ∧ layer.level < op.rank

theorem guarded_nil (layer : Layer) : Guarded layer [] := by simp [Guarded]

theorem guarded_lparen {left : Token} (opens : left.kind = .lparen) (layer : Layer)
    (waiting : List Token) : Guarded layer (left :: waiting) := by
  simp [Guarded,opens]

theorem guarded_operator {token : Token} {op : Operator}
    (names : Operator.ofText? token.text = some op) (waiting : List Token) :
    Guarded (Layer.ofOperator op).tighter (token :: waiting) := by
  intro top member
  cases member
  exact .inr ⟨op,names,Layer.level_tighter_ofOperator op⟩

theorem Guarded.tighten {outer inner : Layer} {waiting : List Token}
    (guarded : Guarded outer waiting) (within : inner.level ≤ outer.level) : Guarded inner waiting := by
  intro top member
  rcases guarded top member with opens | ⟨op,names,looser⟩
  · exact .inl opens
  · exact .inr ⟨op,names,Nat.lt_of_le_of_lt within looser⟩

theorem Pending.loosen {inner outer : Layer} {waiting : List Token}
    (pending : Pending inner waiting) (within : inner.level ≤ outer.level) : Pending outer waiting := by
  intro token member
  obtain ⟨shut,op,names,tight⟩ := pending token member
  exact ⟨shut,op,names,Nat.le_trans tight within⟩

theorem pending_nil (layer : Layer) : Pending layer [] := fun _ member => by cases member

theorem Pending.append {layer : Layer} (first : Pending layer front) (last : Pending layer back) :
    Pending layer (front ++ back) := by
  intro token member
  rcases List.mem_append.mp member with member | member
  · exact first token member
  · exact last token member

theorem enter_stops {token : Token} {popped kept : List Token}
    (tight : ∀ top ∈ popped, top.kind ≠ .lparen ∧ bindsTighter token.text top.text = .ok false)
    (stops : ∀ top ∈ kept.head?, top.kind = .lparen ∨ bindsTighter token.text top.text = .ok true)
    (output : List Token) :
    enter token output (popped ++ kept) = .ok ⟨popped.reverse ++ output, token :: kept⟩ := by
  induction popped generalizing output with
  | nil =>
    cases kept with
    | nil => rfl
    | cons top below =>
      rcases stops top rfl with opens | tighter
      · simp [enter,opens]
      · simp [enter,tighter]
  | cons top popped ih =>
    obtain ⟨⟨shut,looser⟩,later⟩ := List.forall_mem_cons.mp tight
    simp [enter,shut,looser,ih later]

theorem enter_pending {token : Token} {op : Operator} {pending waiting : List Token}
    (names : Operator.ofText? token.text = some op) (tight : Pending (.ofOperator op) pending)
    (guarded : Guarded (.ofOperator op) waiting) (output : List Token) :
    enter token output (pending ++ waiting) =
      .ok ⟨pending.reverse ++ output, token :: waiting⟩ := by
  refine enter_stops (fun top member => ?_) (fun top member => ?_) output
  · obtain ⟨shut,other,others,rank⟩ := tight top member
    rw [Layer.level_ofOperator] at rank
    exact ⟨shut,by simp [bindsTighter_of_names names others,Nat.not_lt_of_le rank]⟩
  · rcases guarded top member with opens | ⟨other,others,looser⟩
    · exact .inl opens
    · rw [Layer.level_ofOperator] at looser
      exact .inr (by simp [bindsTighter_of_names names others,looser])

theorem close_group {left : Token} {inner : List Token} (opens : left.kind = .lparen)
    (shut : ∀ top ∈ inner, top.kind ≠ .lparen) (output waiting : List Token) :
    close output (inner ++ left :: waiting) = .ok ⟨inner.reverse ++ output, waiting⟩ := by
  induction inner generalizing output with
  | nil => simp [close,opens]
  | cons top inner ih =>
    have rest := ih (fun token member => shut token (List.mem_cons_of_mem _ member)) (top :: output)
    simp [close,shut top List.mem_cons_self,rest]

theorem acceptAll_nil (yard : Yard) : yard.acceptAll [] = .ok yard := rfl

theorem acceptAll_cons (yard : Yard) (token : Token) (tokens : List Token) :
    yard.acceptAll (token :: tokens) = (yard.accept token).bind (acceptAll · tokens) := by
  simp [acceptAll,bind]

theorem acceptAll_singleton (yard : Yard) (token : Token) :
    yard.acceptAll [token] = yard.accept token := by
  rw [acceptAll_cons]
  cases yard.accept token <;> rfl

theorem accept_operand {token : Token} (anOperand : token.isOperand = true) (yard : Yard) :
    yard.accept token = .ok { yard with output := token :: yard.output } := by
  rcases Token.isOperand_iff.mp anOperand with kind | kind <;> rw [accept,kind]

end Yard

namespace Grammar

open Yard

/-- What a yard makes of the tokens of a tree: the postorder of the tree, split into a part
that is written out and operators that wait. -/
theorem Parses.acceptAll (parses : Parses layer tokens tree) (output waiting : List Token)
    (guarded : Guarded layer waiting) :
    ∃ written pending, Yard.acceptAll ⟨output, waiting⟩ tokens =
        .ok ⟨written.reverse ++ output, pending ++ waiting⟩ ∧
      written ++ pending = tree.postorder ∧ Pending layer pending := by
  induction parses generalizing output waiting with
  | operand anOperand =>
    refine ⟨[_],[],?_,rfl,pending_nil _⟩
    rw [acceptAll_singleton,accept_operand anOperand]
    rfl
  | group opens closes _ ih =>
    obtain ⟨written,pending,accepted,split,tight⟩ := ih output _ (guarded_lparen opens _ waiting)
    refine ⟨written ++ pending,[],?_,by simpa using split,pending_nil _⟩
    simp [acceptAll_append,acceptAll_cons,acceptAll_nil,accept,opens,closes,Except.bind,accepted,
      close_group opens fun token member => (tight token member).1]
  | lift _ _ ih =>
    obtain ⟨written,pending,accepted,split,tight⟩ :=
      ih output waiting (guarded.tighten (Layer.level_tighter_le _))
    exact ⟨written,pending,accepted,split,tight.loosen (Layer.level_tighter_le _)⟩
  | @chain op _ _ _ _ token anOperator names _ _ ihf ihl =>
    obtain ⟨before,above,first,split,tight⟩ := ihf output waiting guarded
    obtain ⟨written,pending,last,whole,tighter⟩ :=
      ihl (above.reverse ++ (before.reverse ++ output)) _ (guarded_operator names waiting)
    refine ⟨before ++ above ++ written,pending ++ [token],?_,by simp [Tree.postorder,← split,← whole],?_⟩
    · simp [acceptAll_append,acceptAll_cons,accept,anOperator,Except.bind,first,
        enter_pending names tight guarded,last]
    · apply (tighter.loosen (Layer.level_tighter_le _)).append
      intro other member
      obtain rfl := List.mem_singleton.mp member
      exact ⟨by simp [anOperator],op,names,by simp⟩

theorem Parses.toPostfix (parses : Parses .sum tokens tree) :
    toPostfix tokens = .ok tree.postorder := by
  obtain ⟨written,pending,accepted,split,tight⟩ := parses.acceptAll [] [] (guarded_nil _)
  have shut : pending.any (·.kind = .lparen) = false := by
    simpa using fun token member => (tight token member).1
  simp only [Reckoner.toPostfix,accepted,Except.bind,finish,Yard.written,List.append_nil,
    List.reverse_reverse,shut,split]
  rfl

end Grammar
end Reckoner
