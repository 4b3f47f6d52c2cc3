import Reckoner.Proofs.Postfix.Balance
import Reckoner.Proofs.Postfix.Step
import Reckoner.Proofs.Tree.Postorder

/-!
# What a conversion keeps

A yard loses no token but the parentheses and makes none up, whatever order the tokens come in,
and it lets no operand pass another. Of an expression it is the order of the tree that is kept.
-/

namespace Reckoner

open Grammar

variable {tokens read popped kept waiting output : List Token} {token : Token} {yard next : Yard}

def Token.isParenthesis (token : Token) : Bool := token.kind = .lparen || token.kind = .rparen

def Grammar.ungrouped (tokens : List Token) : List Token := tokens.filter (!·.isParenthesis)

theorem Grammar.ungrouped_append (front back : List Token) :
    ungrouped (front ++ back) = ungrouped front ++ ungrouped back := List.filter_append ..

theorem Grammar.ungrouped_eq_self (plain : ∀ token ∈ tokens, token.isParenthesis = false) :
    ungrouped tokens = tokens := List.filter_eq_self.mpr (by simpa using plain)

theorem Grammar.ungrouped_cons (plain : token.isParenthesis = false) (tokens : List Token) :
    ungrouped (token :: tokens) = token :: ungrouped tokens :=
  List.filter_cons_of_pos (by simp [plain])

theorem Grammar.ungrouped_cons_parenthesis (parenthesis : token.kind = .lparen ∨ token.kind = .rparen)
    (tokens : List Token) : ungrouped (token :: tokens) = ungrouped tokens := by
  have outer : token.isParenthesis = true := by simpa [Token.isParenthesis] using parenthesis
  exact List.filter_cons_of_neg (by simp [outer])

theorem Token.isParenthesis_of_operator (anOperator : token.kind = .operator) :
    token.isParenthesis = false := by
  simp [isParenthesis,anOperator]

theorem Token.isParenthesis_of_isOperand (anOperand : token.isOperand = true) :
    token.isParenthesis = false := by
  rcases isOperand_iff.mp anOperand with kind | kind <;> simp [isParenthesis,kind]

namespace Yard

/-- What a yard holds of the tokens that it has read. -/
structure Holds (read : List Token) (yard : Yard) : Prop where
  /-- Operands do not wait, and no closing parenthesis does. -/
  waits : ∀ token ∈ yard.waiting, token.kind = .lparen ∨ token.kind = .operator
  plain : ∀ token ∈ yard.output, token.isParenthesis = false
  /-- Written or waiting, each other token is there as often as it was read. -/
  whole : (yard.written ++ ungrouped yard.waiting).Perm (ungrouped read)
  /-- The operands are written in the order in which they were read. -/
  ordered : yard.written.filter Token.isOperand = read.filter Token.isOperand

theorem holds_empty : Holds [] {} := ⟨by simp,by simp,.refl _,rfl⟩

theorem Holds.move (holds : Holds read ⟨output, popped ++ kept⟩)
    (within : ∀ top ∈ popped, top.kind ≠ .lparen) : Holds read ⟨popped.reverse ++ output, kept⟩ := by
  have operators : ∀ token ∈ popped, token.kind = .operator := fun token member =>
    (holds.waits token (List.mem_append_left _ member)).resolve_left (within token member)
  have plain : ∀ token ∈ popped, token.isParenthesis = false :=
    fun token member => Token.isParenthesis_of_operator (operators token member)
  have noOperand : popped.filter Token.isOperand = [] := by
    simpa [Token.isOperand] using fun token member => by simp [operators token member]
  have moved : written ⟨popped.reverse ++ output, kept⟩ = output.reverse ++ popped := by
    simp [written]
  refine ⟨fun token member => holds.waits token (List.mem_append_right _ member),?_,?_,?_⟩
  · intro token member
    rcases List.mem_append.mp member with above | below
    · exact plain token (List.mem_reverse.mp above)
    · exact holds.plain token below
  · have whole := holds.whole
    rw [ungrouped_append,ungrouped_eq_self plain,← List.append_assoc] at whole
    rwa [moved]
  · rw [moved,List.filter_append,noOperand,List.append_nil]
    exact holds.ordered

theorem Holds.wait (holds : Holds read ⟨output, waiting⟩)
    (waits : token.kind = .lparen ∨ token.kind = .operator) :
    Holds (read ++ [token]) ⟨output, token :: waiting⟩ := by
  have noOperand : token.isOperand = false := by
    rcases waits with kind | kind <;> simp [Token.isOperand,kind]
  refine ⟨List.forall_mem_cons.mpr ⟨waits,holds.waits⟩,holds.plain,?_,?_⟩
  · have fronted : ungrouped (token :: waiting) = ungrouped [token] ++ ungrouped waiting :=
      ungrouped_append [token] waiting
    rw [fronted,ungrouped_append]
    refine List.Perm.trans ?_ (holds.whole.append_right _)
    rw [List.append_assoc]
    exact .append_left _ List.perm_append_comm
  · rw [List.filter_append,← holds.ordered]
    simp [noOperand,written]

theorem Holds.write (holds : Holds read yard) (anOperand : token.isOperand = true) :
    Holds (read ++ [token]) { yard with output := token :: yard.output } := by
  have plain := Token.isParenthesis_of_isOperand anOperand
  have single : ungrouped [token] = [token] := ungrouped_cons plain []
  have appended : written { yard with output := token :: yard.output } = yard.written ++ [token] := by
    simp [written]
  refine ⟨holds.waits,List.forall_mem_cons.mpr ⟨plain,holds.plain⟩,?_,?_⟩
  · rw [appended,ungrouped_append,single]
    refine List.Perm.trans ?_ (holds.whole.append_right _)
    rw [List.append_assoc,List.append_assoc]
    exact .append_left _ List.perm_append_comm
  · rw [appended,List.filter_append,List.filter_append,holds.ordered]

theorem Holds.forget {left right : Token} (holds : Holds read ⟨output, left :: waiting⟩)
    (opens : left.kind = .lparen) (closes : right.kind = .rparen) :
    Holds (read ++ [right]) ⟨output, waiting⟩ := by
  have noOperand : right.isOperand = false := by simp [Token.isOperand,closes]
  refine ⟨fun token member => holds.waits token (.tail _ member),holds.plain,?_,?_⟩
  · have whole := holds.whole
    rw [ungrouped_cons_parenthesis (.inl opens)] at whole
    rw [ungrouped_append,ungrouped_cons_parenthesis (.inr closes),show ungrouped [] = [] from rfl,
      List.append_nil]
    exact whole
  · rw [List.filter_append,← holds.ordered]
    simp [noOperand,written]

theorem Holds.step (holds : Holds read yard) (step : Step yard token next) :
    Holds (read ++ [token]) next := by
  cases step with
  | write anOperand => exact holds.write anOperand
  | group opens => exact holds.wait (.inl opens)
  | close closes opens shut => exact (holds.move shut).forget opens closes
  | enter anOperator tight =>
    exact (holds.move fun top member => (tight top member).1).wait (.inr anOperator)

theorem holds_of_acceptAll (accepts : acceptAll {} tokens = .ok yard) : Holds tokens yard :=
  acceptAll_keeps Holds accepts holds_empty fun _ _ _ _ _ => Holds.step

theorem finish_eq_ok {ordered : List Token} (finishes : yard.finish = .ok ordered) :
    (∀ token ∈ yard.waiting, token.kind ≠ .lparen) ∧ ordered = yard.written ++ yard.waiting := by
  rw [finish] at finishes
  split at finishes
  · cases finishes
  next shut => exact ⟨by simpa using shut,(Except.ok.inj finishes).symm⟩

end Yard

theorem toPostfix_eq_ok {ordered : List Token} (converts : toPostfix tokens = .ok ordered) :
    (∀ token ∈ ordered, token.isParenthesis = false) ∧ ordered.Perm (ungrouped tokens) ∧
      ordered.filter Token.isOperand = tokens.filter Token.isOperand := by
  rw [toPostfix] at converts
  obtain ⟨yard,accepts,finishes⟩ := bind_eq_ok_iff.mp converts
  obtain ⟨shut,rfl⟩ := Yard.finish_eq_ok finishes
  have holds : yard.Holds tokens := Yard.holds_of_acceptAll accepts
  have operators : ∀ token ∈ yard.waiting, token.kind = .operator := fun token member =>
    (holds.waits token member).resolve_left (shut token member)
  have plain : ∀ token ∈ yard.waiting, token.isParenthesis = false :=
    fun token member => Token.isParenthesis_of_operator (operators token member)
  have noOperand : yard.waiting.filter Token.isOperand = [] := by
    simpa [Token.isOperand] using fun token member => by simp [operators token member]
  refine ⟨fun token member => ?_,?_,?_⟩
  · rcases List.mem_append.mp member with written | waiting
    · exact holds.plain token (List.mem_reverse.mp written)
    · exact plain token waiting
  · simpa only [ungrouped_eq_self plain] using holds.whole
  · rw [List.filter_append,noOperand,List.append_nil,holds.ordered]

theorem Grammar.Parses.inorder_eq (parses : Parses layer tokens tree) :
    tree.inorder = ungrouped tokens := by
  induction parses with
  | operand anOperand => exact (ungrouped_cons (Token.isParenthesis_of_isOperand anOperand) []).symm
  | group opens closes _ ih =>
    have outer := ungrouped_cons_parenthesis (.inl opens)
    have last := ungrouped_cons_parenthesis (.inr closes) []
    rw [List.cons_append,outer,ungrouped_append,last,ih]
    simp [ungrouped]
  | lift _ _ ih => exact ih
  | chain anOperator _ _ _ ihl ihr =>
    have plain := ungrouped_cons (Token.isParenthesis_of_operator anOperator)
    rw [ungrouped_append,plain,Tree.inorder,ihl,ihr]

theorem toPostfix_postorder (derives : ∃ tree, Parses .sum tokens tree) :
    ∃ tree, (∀ other, Parses .sum tokens other ↔ other = tree) ∧
      toPostfix tokens = .ok tree.postorder ∧ tree.inorder = ungrouped tokens ∧
      tree.postorder.Perm tree.inorder ∧
      tree.postorder.filter Token.isOperand = tokens.filter Token.isOperand := by
  obtain ⟨tree,parses⟩ := derives
  obtain ⟨_,whole,ordered⟩ := toPostfix_eq_ok parses.toPostfix
  refine ⟨tree,fun other => ⟨parses.unique,?_⟩,parses.toPostfix,parses.inorder_eq,?_,ordered⟩
  · rintro rfl
    exact parses
  · rwa [parses.inorder_eq]

theorem toPostfix_postorder_of_chains :
    let number (text : String) : Token := ⟨.integer,text.toList⟩
    let operator (text : String) : Token := ⟨.operator,text.toList⟩
    let tokens := [number "8",operator "-",number "3",operator "-",⟨.lparen,"(".toList⟩,number "2",
      operator "^",number "3",operator "^",number "2",⟨.rparen,")".toList⟩]
    ∃ tree, (∀ other, Parses .sum tokens other ↔ other = tree) ∧
      tree.postorder = [number "8",number "3",operator "-",number "2",number "3",operator "^",
        number "2",operator "^",operator "-"] := by
  intro number operator tokens
  have named : Named tokens := by simp [Named,tokens,number,operator,Operator.ofText?]
  have derives := (derivable_iff_alternates_nest.mpr (by decide)).parses named
  obtain ⟨tree,only,converts,_⟩ := toPostfix_postorder derives
  exact ⟨tree,only,Except.ok.inj (converts.symm.trans (by decide))⟩

theorem toPostfix_conserves (comparable : Comparable tokens) :
    (∀ failure, toPostfix tokens = .error failure → failure.kind = .invalidExpression) ∧
    ((∃ failure, toPostfix tokens = .error failure) ↔
      (∃ front, front <+: tokens ∧ opened front < closed front) ∨ opened tokens ≠ closed tokens) ∧
    ∀ ordered, toPostfix tokens = .ok ordered →
      (∀ token ∈ ordered, token.isParenthesis = false) ∧ ordered.Perm (ungrouped tokens) ∧
        ordered.filter Token.isOperand = tokens.filter Token.isOperand := by
  have counts : nest 0 tokens = some 0 ↔
      ¬ ((∃ front, front <+: tokens ∧ opened front < closed front) ∨ opened tokens ≠ closed tokens) := by
    simp [nest_eq_some_iff]
  rcases toPostfix_balance comparable with ⟨balanced,ordered,converts⟩ | ⟨unbalanced,fails⟩
  · refine ⟨by simp [converts],?_,fun _ => toPostfix_eq_ok⟩
    exact iff_of_false (by simp [converts]) (counts.mp balanced)
  · refine ⟨?_,?_,fun _ => toPostfix_eq_ok⟩
    · rintro failure same
      rw [fails] at same
      cases same
      rfl
    · exact iff_of_true ⟨_,fails⟩ (Classical.not_not.mp fun balanced => unbalanced (counts.mpr balanced))

theorem toPostfix_conserves_of_scattered :
    let operator (text : String) : Token := ⟨.operator,text.toList⟩
    let tokens := [operator "+",⟨.lparen,"(".toList⟩,operator "(",⟨.rparen,")".toList⟩,
      ⟨.integer,"1".toList⟩,operator "-",⟨.identifier,"x".toList⟩,operator "^"]
    Comparable tokens ∧ ∃ ordered, toPostfix tokens = .ok ordered ∧
      ordered.Perm (tokens.filter fun token => !token.isParenthesis) ∧
      ordered.filter Token.isOperand = [⟨.integer,"1".toList⟩,⟨.identifier,"x".toList⟩] := by
  intro operator tokens
  have comparable : Comparable tokens := by
    intro token member
    revert token
    decide
  obtain ⟨_,_,keeps⟩ := toPostfix_conserves comparable
  obtain ⟨_,whole,ordered⟩ := keeps _ rfl
  exact ⟨comparable,_,rfl,whole,ordered⟩

end Reckoner
