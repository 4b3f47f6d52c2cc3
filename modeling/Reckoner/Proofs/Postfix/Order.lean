import Mathlib.Algebra.Order.BigOperators.Group.List
import Mathlib.Algebra.Order.Ring.Nat
import Mathlib.Data.List.Perm.Subperm
import Reckoner.Proofs.Postfix.Conservation

/-!
# The order of what waits

An operator comes to wait on a parenthesis or on an operator that binds less tightly. So between
two parentheses the waiting operators bind ever tighter towards the top, there are no more of them
than there are ranks, and the depth of nesting bounds how much waits: `Yard.waiting_ascends`.
-/

namespace Reckoner

open Grammar

section
variable {α : Type} (p : α → Bool)

theorem length_splitOnP (list : List α) :
    (list.splitOnP p).length = list.countP p + 1 ∧
      ((list.splitOnP p).map (·.length + 1)).sum = list.length + 1 := by
  induction list with
  | nil => simp
  | cons head tail ih =>
    obtain ⟨first,later,pieces⟩ := List.exists_cons_of_ne_nil (List.splitOnP_ne_nil p tail)
    rw [pieces,List.length_cons,List.map_cons,List.sum_cons] at ih
    rw [List.splitOnP_cons_eq_if_modifyHead,pieces]
    by_cases cut : p head = true
    · rw [if_pos cut,List.countP_cons_of_pos cut]
      simp only [List.length_cons,List.length_nil,List.map_cons,List.sum_cons]
      omega
    · rw [if_neg cut,List.countP_cons_of_neg cut,List.modifyHead_cons]
      simp only [List.length_cons,List.map_cons,List.sum_cons]
      omega

theorem length_le_of_splitOnP {bound : Nat} {list : List α}
    (short : ∀ piece ∈ list.splitOnP p, piece.length ≤ bound) :
    list.length ≤ (bound + 1) * list.countP p + bound := by
  obtain ⟨count,size⟩ := length_splitOnP p list
  have pieces : ((list.splitOnP p).map (·.length + 1)).sum ≤ (list.splitOnP p).length * (bound + 1) := by
    have each := List.sum_le_card_nsmul ((list.splitOnP p).map (·.length + 1)) (bound + 1)
      (by simpa using short)
    simpa using each
  rw [size,count,Nat.mul_comm,Nat.mul_add_one] at pieces
  omega

end

theorem Operator.length_le_of_ranks {ops : List Operator}
    (ascends : ops.Pairwise fun above below => above.rank < below.rank) : ops.length ≤ 3 := by
  have distinct : (ops.map rank).Nodup := List.pairwise_map.mpr (ascends.imp Nat.ne_of_lt)
  have among : ops.map rank ⊆ [2,3,4] := by
    intro rank member
    obtain ⟨op,_,rfl⟩ := List.mem_map.mp member
    cases op <;> simp [Operator.rank]
  simpa using (distinct.subperm among).length_le

namespace Yard

/-- What waits, from the top: parentheses, and operators that each wait on a parenthesis or on an
operator that binds less tightly. -/
inductive Stacked : List Token → Prop
  | empty : Stacked []
  | group (opens : left.kind = .lparen) (stacked : Stacked below) : Stacked (left :: below)
  | operator (anOperator : token.kind = .operator) (names : Operator.ofText? token.text = some op)
      (guarded : Guarded (.ofOperator op) below) (stacked : Stacked below) : Stacked (token :: below)

variable {tokens front waiting rest : List Token} {token : Token} {op : Operator} {yard next : Yard}

namespace Stacked

theorem suffix (stacked : Stacked waiting) (rests : rest <:+ waiting) : Stacked rest := by
  induction stacked with
  | empty =>
    obtain rfl := List.suffix_nil.mp rests
    exact .empty
  | group opens below ih =>
    rcases List.suffix_cons_iff.mp rests with rfl | inner
    · exact .group opens below
    · exact ih inner
  | operator anOperator names guarded below ih =>
    rcases List.suffix_cons_iff.mp rests with rfl | inner
    · exact .operator anOperator names guarded below
    · exact ih inner

theorem waits (stacked : Stacked waiting) :
    ∀ token ∈ waiting, token.kind = .lparen ∨ token.kind = .operator := by
  induction stacked with
  | empty => simp
  | group opens _ ih => exact List.forall_mem_cons.mpr ⟨.inl opens,ih⟩
  | operator anOperator _ _ _ ih => exact List.forall_mem_cons.mpr ⟨.inr anOperator,ih⟩

theorem guarded (stacked : Stacked waiting) (names : Operator.ofText? token.text = some op)
    (stops : ∀ top ∈ waiting.head?, top.kind = .lparen ∨ bindsTighter token.text top.text = .ok true) :
    Guarded (.ofOperator op) waiting := by
  intro top member
  cases stacked with
  | empty => cases member
  | group opens =>
    cases member
    exact .inl opens
  | operator anOperator others =>
    cases member
    rcases stops _ rfl with opens | tighter
    · exact .inl opens
    · rw [bindsTighter_of_names names others] at tighter
      rw [Layer.level_ofOperator]
      exact .inr ⟨_,others,by simpa using tighter⟩

theorem step (stacked : Stacked yard.waiting) (step : Step yard token next)
    (named : token.kind = .operator → ∃ op, Operator.ofText? token.text = some op) :
    Stacked next.waiting := by
  cases step with
  | write => exact stacked
  | group opens => exact .group opens stacked
  | close =>
    exact (stacked.suffix (List.suffix_append ..)).suffix (List.suffix_cons ..)
  | enter anOperator _ stops =>
    obtain ⟨op,names⟩ := named anOperator
    have below := stacked.suffix (List.suffix_append ..)
    exact .operator anOperator names (below.guarded names stops) below

theorem of_acceptAll (named : Named tokens) (accepts : acceptAll {} tokens = .ok yard) :
    Stacked yard.waiting :=
  acceptAll_keeps (fun _ yard => Stacked yard.waiting) accepts .empty
    fun _ token member _ _ stacked step => stacked.step step (named token member)

theorem stretches (stacked : Stacked waiting) : ∃ first : List Operator, ∃ later,
    waiting.splitOnP (·.kind = .lparen) = (first :: later).map (·.map Operator.token) ∧
    (∀ ops ∈ first :: later, ops.Pairwise fun above below => above.rank < below.rank) ∧
    ∀ op, Guarded (.ofOperator op) waiting → ∀ other ∈ first, op.rank < other.rank := by
  induction stacked with
  | empty => exact ⟨[],[],rfl,by simp,by simp⟩
  | group opens _ ih =>
    obtain ⟨first,later,split,ascend,_⟩ := ih
    refine ⟨[],first :: later,?_,List.forall_mem_cons.mpr ⟨.nil,ascend⟩,by simp⟩
    rw [List.splitOnP_cons_eq_if_modifyHead,if_pos (by simp [opens]),split]
    rfl
  | @operator op _ token anOperator names guarded _ ih =>
    obtain ⟨first,later,split,ascend,above⟩ := ih
    obtain ⟨top,others⟩ := List.forall_mem_cons.mp ascend
    refine ⟨op :: first,later,?_,?_,?_⟩
    · rw [List.splitOnP_cons_eq_if_modifyHead,if_neg (by simp [anOperator]),split,
        Token.eq_operator_token anOperator names]
      rfl
    · exact List.forall_mem_cons.mpr ⟨.cons (above op guarded) top,others⟩
    · intro outer guards
      have here : outer.rank < op.rank := by
        rcases guards token rfl with opens | ⟨same,again,looser⟩
        · simp [anOperator] at opens
        · rw [names] at again
          cases again
          rwa [Layer.level_ofOperator] at looser
      refine List.forall_mem_cons.mpr ⟨here,fun other member => ?_⟩
      exact Nat.lt_trans here (above op guarded other member)

end Stacked

/-- At every step of a conversion, also while operators are being written out, only parentheses and
operators wait. In each stretch between parentheses the ranks strictly descend from the bottom to
the top, so that no more waits than the number of open groups allows. -/
theorem waiting_ascends (named : Named tokens) (leads : front <+: tokens)
    (accepts : acceptAll {} front = .ok yard) (rests : waiting <:+ yard.waiting) :
    (∀ token ∈ waiting, token.kind = .lparen ∨ token.kind = .operator) ∧
    (∀ stretch ∈ waiting.splitOnP (·.kind = .lparen), ∃ ops : List Operator,
      stretch = ops.map Operator.token ∧ ops.Pairwise fun above below => above.rank < below.rank) ∧
    waiting.length ≤ 4 * depth waiting + 3 := by
  obtain ⟨later,rfl⟩ := leads
  have stacked : Stacked waiting := (Stacked.of_acceptAll named.left accepts).suffix rests
  obtain ⟨first,others,split,ascend,_⟩ := stacked.stretches
  have stretches : ∀ stretch ∈ waiting.splitOnP (·.kind = .lparen), ∃ ops : List Operator,
      stretch = ops.map Operator.token ∧ ops.Pairwise fun above below => above.rank < below.rank := by
    rw [split]
    intro stretch member
    obtain ⟨ops,among,rfl⟩ := List.mem_map.mp member
    exact ⟨ops,rfl,ascend ops among⟩
  refine ⟨stacked.waits,stretches,length_le_of_splitOnP _ fun stretch member => ?_⟩
  obtain ⟨ops,rfl,ascends⟩ := stretches stretch member
  rw [List.length_map]
  exact Operator.length_le_of_ranks ascends

theorem waiting_ascends_of_nested :
    let name (text : String) : Token := ⟨.identifier,text.toList⟩
    let operator (text : String) : Token := ⟨.operator,text.toList⟩
    let left : Token := ⟨.lparen,"(".toList⟩
    let front := [name "a",operator "/",name "b",operator "-",name "c",operator "*",name "d",
      operator "^",left,name "e",operator "+",name "f",operator "/",name "g",operator "^"]
    let waiting := [operator "^",operator "/",operator "+",left,operator "^",operator "*",operator "-"]
    Named (front ++ [name "h"]) ∧ (∃ yard, acceptAll {} front = .ok yard ∧ yard.waiting = waiting) ∧
      (∀ stretch ∈ waiting.splitOnP (·.kind = .lparen), ∃ ops : List Operator,
        stretch = ops.map Operator.token ∧ ops.Pairwise fun above below => above.rank < below.rank) ∧
      waiting.length = 4 * depth waiting + 3 := by
  intro name operator left front waiting
  have named : Named (front ++ [name "h"]) := by
    simp [Named,front,name,operator,left,Operator.ofText?]
  have accepts : acceptAll {} front = .ok ⟨[name "g",name "f",name "e",name "d",name "c",
    operator "/",name "b",name "a"],waiting⟩ := by decide
  obtain ⟨_,stretches,_⟩ := waiting_ascends named (List.prefix_append ..) accepts (List.suffix_refl _)
  exact ⟨named,⟨_,accepts,rfl⟩,stretches,by decide⟩

end Yard
end Reckoner
