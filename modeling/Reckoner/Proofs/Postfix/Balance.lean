import Reckoner.Postfix
import Reckoner.Proofs.Grammar.Layering
import Reckoner.Proofs.Grammar.Nesting
import Reckoner.Proofs.Postfix.Conversion

/-!
# Balance

What waits in a yard keeps count of the groups that are open. So the conversion to postfix order
fails exactly where the count of groups does, whatever order operands and operators stand in.
-/

namespace Reckoner

/-- Every operator token has a text that is ranked, if only as that of a parenthesis. -/
def Grammar.Comparable (tokens : List Token) : Prop :=
  ∀ token ∈ tokens, token.kind = .operator → (rank? token.text).isSome = true

open Grammar

theorem Grammar.Named.comparable (named : Named tokens) : Comparable tokens := by
  intro token member anOperator
  obtain ⟨op,names⟩ := named token member anOperator
  simp [rank?_of_names names]

namespace Yard

/-- Each waiting token is an opening parenthesis or has a text that is ranked. -/
def Ranked (waiting : List Token) : Prop :=
  ∀ token ∈ waiting, token.kind = .lparen ∨ ∃ rank, rank? token.text = some rank

theorem Ranked.cons {token : Token} {waiting : List Token} (ranked : Ranked waiting)
    (first : token.kind = .lparen ∨ ∃ rank, rank? token.text = some rank) :
    Ranked (token :: waiting) := by
  intro other member
  rcases List.mem_cons.mp member with rfl | member
  · exact first
  · exact ranked other member

theorem Ranked.below {token : Token} {waiting : List Token} (ranked : Ranked (token :: waiting)) :
    Ranked waiting :=
  fun other member => ranked other (List.mem_cons_of_mem _ member)

def depth (waiting : List Token) : Nat := waiting.countP (·.kind = .lparen)

theorem depth_cons (token : Token) (waiting : List Token) :
    depth (token :: waiting) = depth waiting + if token.kind = .lparen then 1 else 0 := by
  simp [depth,List.countP_cons]

/-- The outcome of a conversion under way agrees with a count of the open groups. -/
inductive Counts : Option Nat → Except Failure Yard → Prop
  | opened {yard : Yard} (ranked : Ranked yard.waiting) (count : depth yard.waiting = groups) :
      Counts (some groups) (.ok yard)
  | unbalanced : Counts none (.error .unbalancedGroup)

/-- An operator opens and closes no group, and it is compared with operators only. -/
theorem enter_counts {token : Token} {waiting : List Token} (anOperator : token.kind = .operator)
    (hasRank : rank? token.text = some rank) (ranked : Ranked waiting) (output : List Token) :
    Counts (some (depth waiting)) (enter token output waiting) := by
  induction waiting generalizing output with
  | nil => exact .opened (ranked.cons (.inr ⟨rank,hasRank⟩)) (by simp [depth_cons,anOperator])
  | cons top below ih =>
    have stays : Counts (some (depth (top :: below))) (.ok ⟨output,token :: top :: below⟩) :=
      .opened (ranked.cons (.inr ⟨rank,hasRank⟩)) (by simp [depth_cons,anOperator])
    by_cases opens : top.kind = .lparen
    · simpa [enter,opens] using stays
    · obtain ⟨other,topRank⟩ := (ranked top List.mem_cons_self).resolve_left opens
      by_cases tighter : rank < other
      · simpa [enter,opens,bindsTighter_of_ranks hasRank topRank,tighter] using stays
      · have popped := ih ranked.below (top :: output)
        simpa [enter,opens,bindsTighter_of_ranks hasRank topRank,tighter,depth_cons] using popped

theorem close_counts {waiting : List Token} (ranked : Ranked waiting) (output : List Token) :
    Counts (enclose (depth waiting) .rparen) (close output waiting) := by
  induction waiting generalizing output with
  | nil => exact .unbalanced
  | cons top below ih =>
    by_cases opens : top.kind = .lparen
    · have closed : Counts (some (depth below)) (.ok ⟨output,below⟩) := .opened ranked.below rfl
      simpa [close,opens,depth_cons,enclose] using closed
    · simpa [close,opens,depth_cons] using ih ranked.below (top :: output)

theorem accept_counts {yard : Yard} {token : Token} (ranked : Ranked yard.waiting)
    (comparable : token.kind = .operator → (rank? token.text).isSome = true) :
    Counts (enclose (depth yard.waiting) token.kind) (yard.accept token) := by
  cases kind : token.kind with
  | identifier | integer =>
    rw [accept,kind]
    exact .opened ranked rfl
  | lparen =>
    rw [accept,kind]
    exact .opened (ranked.cons (.inl kind)) (by simp [depth_cons,kind])
  | rparen => simpa [accept,kind] using close_counts ranked yard.output
  | operator =>
    obtain ⟨rank,hasRank⟩ := Option.isSome_iff_exists.mp (comparable kind)
    simpa [accept,kind,enclose] using enter_counts kind hasRank ranked yard.output

theorem acceptAll_counts {yard : Yard} {tokens : List Token} (ranked : Ranked yard.waiting)
    (comparable : Comparable tokens) :
    Counts (nest (depth yard.waiting) tokens) (yard.acceptAll tokens) := by
  induction tokens generalizing yard with
  | nil => exact .opened ranked rfl
  | cons token rest ih =>
    have step := accept_counts ranked (comparable token List.mem_cons_self)
    have later : Comparable rest := fun other member => comparable other (.tail _ member)
    rw [nest_cons,acceptAll_cons]
    generalize yard.accept token = outcome at step ⊢
    generalize enclose (depth yard.waiting) token.kind = inner at step ⊢
    cases step with
    | opened kept count => subst count; exact ih kept later
    | unbalanced => exact .unbalanced

theorem finish_of_depth {yard : Yard} (shut : depth yard.waiting = 0) :
    yard.finish = .ok (yard.written ++ yard.waiting) := by
  have closed : yard.waiting.any (·.kind = .lparen) = false := by simpa [depth] using shut
  simp [finish,closed]

theorem finish_of_depth_ne {yard : Yard} (opened : depth yard.waiting ≠ 0) :
    yard.finish = .error .unbalancedGroup := by
  have remains : yard.waiting.any (·.kind = .lparen) = true := by simpa [depth] using opened
  simp [finish,remains]

end Yard

theorem toPostfix_balance {tokens : List Token} (comparable : Comparable tokens) :
    (nest 0 tokens = some 0 ∧ ∃ ordered, toPostfix tokens = .ok ordered) ∨
    (nest 0 tokens ≠ some 0 ∧ toPostfix tokens = .error .unbalancedGroup) := by
  have nothing : Yard.Ranked ({} : Yard).waiting := fun _ member => by cases member
  have counts := Yard.acceptAll_counts nothing comparable
  rw [toPostfix]
  change Yard.Counts (nest 0 tokens) _ at counts
  generalize Yard.acceptAll {} tokens = outcome at counts ⊢
  generalize nest 0 tokens = depth at counts ⊢
  cases counts with
  | @opened groups yard _ count =>
    subst count
    by_cases shut : Yard.depth yard.waiting = 0
    · exact .inl ⟨congrArg some shut,_,Yard.finish_of_depth shut⟩
    · exact .inr ⟨fun same => shut (Option.some.inj same),Yard.finish_of_depth_ne shut⟩
  | unbalanced => exact .inr ⟨by simp,rfl⟩

end Reckoner
