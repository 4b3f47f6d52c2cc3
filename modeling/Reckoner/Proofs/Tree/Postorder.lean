import Reckoner.Proofs.Postfix.Conversion

/-!
# Postorders

A postorder determines its tree, since its last token is the root and tells whether it is a
leaf. With the conversion to postfix order this makes the grammar unambiguous.
-/

namespace Reckoner

namespace Tree

/-- Where two lists end in postorders and are equal, the postorders are of one tree. -/
theorem postorder_suffix_unique {a b : Tree} (formed : a.Formed) (other : b.Formed)
    {front rest : List Token} (same : front ++ a.postorder = rest ++ b.postorder) :
    a = b ∧ front = rest := by
  induction a generalizing b front rest with
  | leaf operand =>
    cases b with
    | leaf operand' =>
      obtain ⟨heads,tails⟩ := List.append_inj' same rfl
      exact ⟨congrArg leaf (List.head_eq_of_cons_eq tails),heads⟩
    | node op left right =>
      rw [postorder,postorder,← List.append_assoc] at same
      obtain ⟨_,roots⟩ := List.append_inj' same rfl
      obtain rfl := List.head_eq_of_cons_eq roots
      simp [Formed,other.1] at formed
  | node op left right ihl ihr =>
    cases b with
    | leaf operand =>
      rw [postorder,postorder,← List.append_assoc] at same
      obtain ⟨_,roots⟩ := List.append_inj' same rfl
      obtain rfl := List.head_eq_of_cons_eq roots
      simp [Formed,formed.1] at other
    | node op' left' right' =>
      simp only [postorder,← List.append_assoc] at same
      obtain ⟨below,roots⟩ := List.append_inj' same rfl
      obtain ⟨rights,below⟩ := ihr formed.2.2 other.2.2 below
      obtain ⟨lefts,fronts⟩ := ihl formed.2.1 other.2.1 below
      exact ⟨by rw [lefts,rights,List.head_eq_of_cons_eq roots],fronts⟩

theorem postorder_injective {a b : Tree} (formed : a.Formed) (other : b.Formed)
    (same : a.postorder = b.postorder) : a = b :=
  (postorder_suffix_unique formed other (congrArg ([] ++ ·) same)).1

end Tree

theorem Grammar.Parses.unique (parses : Parses .sum tokens tree)
    (others : Parses .sum tokens other) : other = tree := by
  have same : Except.ok (ε := Failure) other.postorder = .ok tree.postorder :=
    others.toPostfix.symm.trans parses.toPostfix
  exact Tree.postorder_injective others.formed parses.formed (Except.ok.inj same)

end Reckoner
