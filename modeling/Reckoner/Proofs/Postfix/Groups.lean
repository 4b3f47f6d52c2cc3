import Reckoner.Proofs.Postfix.Conservation

/-!
# Groups on a yard

In a group a yard works as a yard of its own would, on top of what was written and what waits
already. So tokens that can be converted are written in a group as they are alone, and the
closing parenthesis leaves what waits as the opening one found it: `Yard.acceptAll_grouped`.
-/

namespace Reckoner

open Grammar

variable {tokens ordered : List Token} {left right token : Token} {yard next : Yard}

namespace Yard

/-- A yard at work in the group that a parenthesis opens on another yard. -/
def inGroup (yard outer : Yard) (left : Token) : Yard :=
  ⟨yard.output ++ outer.output, yard.waiting ++ left :: outer.waiting⟩

theorem written_inGroup (yard outer : Yard) (left : Token) :
    (yard.inGroup outer left).written = outer.written ++ yard.written := by
  simp [written,inGroup]

/-- Nothing below the parenthesis of a group changes what a yard does in the group. -/
theorem Step.inGroup (step : Step yard token next) (opens : left.kind = .lparen) (outer : Yard) :
    Step (yard.inGroup outer left) token (next.inGroup outer left) := by
  cases step with
  | write anOperand => exact .write anOperand
  | group inner => exact .group inner
  | close closes inner shut =>
    simp only [Yard.inGroup,List.append_assoc,List.cons_append]
    exact .close closes inner shut
  | @enter _ _ _ kept anOperator tight stops =>
    simp only [Yard.inGroup,List.append_assoc,List.cons_append]
    refine .enter anOperator tight ?_
    cases kept with
    | nil => simp [opens]
    | cons top below => exact stops

theorem acceptAll_opened (opens : left.kind = .lparen) (accepts : acceptAll {} tokens = .ok next)
    (outer : Yard) : outer.acceptAll (left :: tokens) = .ok (next.inGroup outer left) := by
  apply acceptAll_keeps (fun read yard => outer.acceptAll (left :: read) = .ok (yard.inGroup outer left))
    accepts
  · rw [acceptAll_singleton]
    exact accept_eq_ok_iff.mpr (.group opens)
  · intro read token _ before after alike step
    rw [← List.cons_append,acceptAll_append,alike]
    exact (acceptAll_singleton _ token).trans (accept_eq_ok_iff.mpr (step.inGroup opens outer))

theorem acceptAll_group_of_toPostfix (opens : left.kind = .lparen) (closes : right.kind = .rparen)
    (converts : toPostfix tokens = .ok ordered) (outer : Yard) :
    outer.acceptAll (left :: tokens ++ [right]) =
      .ok ⟨ordered.reverse ++ outer.output, outer.waiting⟩ := by
  rw [toPostfix] at converts
  obtain ⟨inner,accepts,finishes⟩ := bind_eq_ok_iff.mp converts
  obtain ⟨shut,rfl⟩ := finish_eq_ok finishes
  have closed : Step (inner.inGroup outer left) right
      ⟨inner.waiting.reverse ++ (inner.output ++ outer.output), outer.waiting⟩ :=
    .close closes opens shut
  rw [acceptAll_append,acceptAll_opened opens accepts outer]
  refine (acceptAll_singleton _ right).trans ((accept_eq_ok_iff.mpr closed).trans ?_)
  simp [written]

theorem acceptAll_grouped (derivable : Derivable .expression tokens) (named : Named tokens)
    (opens : left.kind = .lparen) (closes : right.kind = .rparen) :
    ∃ tree, (∀ other, Parses .sum tokens other ↔ other = tree) ∧ ∀ outer : Yard,
      (∃ next, outer.acceptAll (left :: tokens ++ [right]) = .ok next ∧
        next.written = outer.written ++ tree.postorder ∧ next.waiting = outer.waiting) ∧
      ∀ front, front <+: tokens → ∃ inner, outer.acceptAll (left :: front) = .ok inner ∧
        outer.written <+: inner.written ∧ left :: outer.waiting <:+ inner.waiting := by
  obtain ⟨tree,parses⟩ := derivable.parses named
  refine ⟨tree,fun other => ⟨parses.unique,?_⟩,fun outer => ⟨?_,?_⟩⟩
  · rintro rfl
    exact parses
  · have converted := acceptAll_group_of_toPostfix opens closes parses.toPostfix outer
    exact ⟨_,converted,by simp [written],rfl⟩
  · rintro front ⟨rest,rfl⟩
    obtain ⟨whole,accepts,_⟩ := bind_eq_ok_iff.mp parses.toPostfix
    rw [acceptAll_append] at accepts
    obtain ⟨part,first,_⟩ := bind_eq_ok_iff.mp accepts
    refine ⟨_,acceptAll_opened opens first outer,?_,List.suffix_append ..⟩
    rw [written_inGroup]
    exact List.prefix_append ..

theorem acceptAll_grouped_of_differences :
    let name (text : String) : Token := ⟨.identifier,text.toList⟩
    let operator (text : String) : Token := ⟨.operator,text.toList⟩
    let left : Token := ⟨.lparen,"(".toList⟩
    let right : Token := ⟨.rparen,")".toList⟩
    let tokens := [name "a",operator "-",left,name "b",operator "^",name "c",operator "^",name "d",
      right,operator "-",name "e",operator "*",name "f"]
    let outer : Yard := ⟨[name "y",name "x"],[operator "+",operator "^",operator "*"]⟩
    Derivable .expression tokens ∧ Named tokens ∧
      ∃ next, outer.acceptAll (left :: tokens ++ [right]) = .ok next ∧
        next.written = [name "x",name "y",name "a",name "b",name "c",operator "^",name "d",
          operator "^",operator "-",name "e",name "f",operator "*",operator "-"] ∧
        next.waiting = [operator "+",operator "^",operator "*"] := by
  intro name operator left right tokens outer
  have derivable : Derivable .expression tokens := derivable_iff_alternates_nest.mpr (by decide)
  have named : Named tokens := by
    simp [Named,tokens,name,operator,left,right,Operator.ofText?]
  have opens : left.kind = .lparen := rfl
  have closes : right.kind = .rparen := rfl
  obtain ⟨tree,only,frames⟩ := acceptAll_grouped derivable named opens closes
  obtain ⟨⟨next,accepts,written,waits⟩,_⟩ := frames outer
  have converts : toPostfix tokens = .ok tree.postorder := ((only tree).mpr rfl).toPostfix
  have order : tree.postorder = [name "a",name "b",name "c",operator "^",name "d",operator "^",
      operator "-",name "e",name "f",operator "*",operator "-"] :=
    Except.ok.inj (converts.symm.trans (by decide))
  rw [order] at written
  exact ⟨derivable,named,next,accepts,written,waits⟩

end Yard
end Reckoner
