import Reckoner.Grammar.Derivation

/-!
# Nesting

The walk that alternates operands and operators knows no groups, and counting groups knows no
operands. Together they accept what the grammar derives: `derivable_iff_alternates_nest`.
-/

namespace Reckoner.Grammar

/-- The depth of nesting after a token; no group may be closed that is not open. -/
def enclose : Nat → Token.Kind → Option Nat
  | depth, .lparen => some (depth + 1)
  | 0, .rparen => none
  | depth + 1, .rparen => some depth
  | depth, .identifier | depth, .integer | depth, .operator => some depth

def nest (depth : Nat) : List Token → Option Nat
  | [] => some depth
  | token :: rest => (enclose depth token.kind).bind (nest · rest)

@[simp] theorem nest_nil (depth : Nat) : nest depth [] = some depth := rfl

theorem nest_cons (depth : Nat) (token : Token) (rest : List Token) :
    nest depth (token :: rest) = (enclose depth token.kind).bind (nest · rest) := rfl

theorem nest_append (depth : Nat) (front back : List Token) :
    nest depth (front ++ back) = (nest depth front).bind (nest · back) := by
  induction front generalizing depth with
  | nil => rfl
  | cons token front ih =>
    rw [List.cons_append,nest_cons,nest_cons]
    cases enclose depth token.kind with
    | none => rfl
    | some inner => exact ih inner

theorem enclose_operand {token : Token} (anOperand : token.isOperand = true) (depth : Nat) :
    enclose depth token.kind = some depth := by
  rcases Token.isOperand_iff.mp anOperand with kind | kind <;> cases depth <;> rw [kind] <;> rfl

theorem after_operand {token : Token} (anOperand : token.isOperand = true) :
    Due.operand.after token.kind = some .operator := by
  rcases Token.isOperand_iff.mp anOperand with kind | kind <;> rw [kind] <;> rfl

/-- How many groups tokens open and how many they close. -/
def opened (tokens : List Token) : Nat := tokens.countP (·.kind = .lparen)
def closed (tokens : List Token) : Nat := tokens.countP (·.kind = .rparen)

theorem opened_append (front back : List Token) : opened (front ++ back) = opened front + opened back :=
  List.countP_append

theorem closed_append (front back : List Token) : closed (front ++ back) = closed front + closed back :=
  List.countP_append

theorem enclose_eq (depth : Nat) (token : Token) :
    enclose depth token.kind =
      if depth + opened [token] < closed [token] then none
      else some (depth + opened [token] - closed [token]) := by
  cases kind : token.kind <;> cases depth <;> simp [enclose,opened,closed,kind]

theorem nest_eq_some_iff {depth rest : Nat} {tokens : List Token} :
    nest depth tokens = some rest ↔
      (∀ front, front <+: tokens → closed front ≤ depth + opened front) ∧
        depth + opened tokens = rest + closed tokens := by
  induction tokens generalizing depth with
  | nil => simp [opened,closed]
  | cons token tokens ih =>
    have openedCons (later : List Token) := opened_append [token] later
    have closedCons (later : List Token) := closed_append [token] later
    simp only [List.singleton_append] at openedCons closedCons
    rw [nest_cons,enclose_eq,openedCons tokens,closedCons tokens]
    by_cases short : depth + opened [token] < closed [token]
    · rw [if_pos short]
      refine iff_of_false (by simp) fun ⟨enough,_⟩ => ?_
      exact absurd (enough [token] (by simp)) (Nat.not_le_of_lt short)
    · rw [if_neg short,Option.bind_some,ih]
      constructor
      · rintro ⟨enough,total⟩
        refine ⟨fun front leads => ?_,by omega⟩
        rcases List.prefix_cons_iff.mp leads with rfl | ⟨later,rfl,inner⟩
        · exact Nat.zero_le _
        · have spare := enough later inner
          rw [openedCons later,closedCons later]
          omega
      · rintro ⟨enough,total⟩
        refine ⟨fun later inner => ?_,by omega⟩
        have spare := enough (token :: later) (List.prefix_cons_iff.mpr (.inr ⟨later,rfl,inner⟩))
        rw [openedCons later,closedCons later] at spare
        omega

theorem isOperand_iff_of_after {token : Token} {due next : Due}
    (after : due.after token.kind = some next) :
    token.isOperand = true ↔ due = .operand ∧ next = .operator := by
  rw [Token.isOperand_iff]
  cases due <;> cases kind : token.kind <;> rw [kind] at after <;> cases after <;> simp

theorem Derivable.nest (derivable : Derivable part tokens) (depth : Nat) :
    nest depth tokens = some depth := by
  induction derivable generalizing depth with
  | operand anOperand => simp [nest_cons,enclose_operand anOperand]
  | group opens closes _ ih => simp [nest_append,nest_cons,opens,closes,ih,enclose]
  | single _ ih => exact ih depth
  | chain _ anOperator _ ihf ihl => simp [nest_append,nest_cons,anOperator,ihf,ihl,enclose]

theorem alternates_cons {due next : Due} {token : Token} (after : due.after token.kind = some next)
    (rest : List Token) : alternates due (token :: rest) = alternates next rest := by
  simp [alternates,after]

theorem alternates_cons_iff {due : Due} {token : Token} {rest : List Token} :
    alternates due (token :: rest) = true ↔
      ∃ next, due.after token.kind = some next ∧ alternates next rest = true := by
  rw [alternates]
  cases due.after token.kind <;> simp

theorem Derivable.alternates (derivable : Derivable part tokens) (rest : List Token) :
    alternates .operand (tokens ++ rest) = alternates .operator rest := by
  induction derivable generalizing rest with
  | operand anOperand => exact alternates_cons (after_operand anOperand) rest
  | group opens closes _ ih =>
    rw [List.append_assoc,List.cons_append,alternates_cons (by rw [opens]; rfl),ih,
      List.singleton_append,alternates_cons (by rw [closes]; rfl)]
  | single _ ih => exact ih rest
  | chain _ anOperator _ ihf ihl =>
    rw [List.append_assoc,ihf,List.cons_append,alternates_cons (by rw [anOperator]; rfl),ihl]

/-- What stands in a group before the next token: where an operator is due an expression, and
where an operand is due nothing or an expression with its operator. -/
inductive Stands : Due → List Token → Prop
  | start : Stands .operand []
  | link (first : Derivable .expression front) (anOperator : op.kind = .operator) :
      Stands .operand (front ++ [op])
  | whole (derivable : Derivable .expression front) : Stands .operator front

theorem Stands.term (stands : Stands .operand front) (last : Derivable .term back) :
    Stands .operator (front ++ back) := by
  cases stands with
  | start => exact .whole (.single last)
  | link first anOperator => exact .whole (by simpa using Derivable.chain first anOperator last)

/-- What stands before each open group, and the parenthesis that opens it; innermost first. -/
abbrev Open := List (List Token × Token)

def Open.Valid (outer : Open) : Prop :=
  ∀ group ∈ outer, Stands .operand group.1 ∧ group.2.kind = .lparen

/-- The tokens with the open groups before them. -/
def Open.before : Open → List Token → List Token
  | [], tokens => tokens
  | (front, left) :: outer, tokens => before outer (front ++ left :: tokens)

/-- Tokens that walk on from where they stand and close the open groups complete an expression. -/
theorem Stands.completes {outer : Open} (stands : Stands due front) (valid : outer.Valid)
    (walks : alternates due tokens = true) (nests : nest outer.length tokens = some 0) :
    Derivable .expression (outer.before (front ++ tokens)) := by
  induction tokens generalizing due front outer with
  | nil =>
    obtain rfl : outer = [] := List.eq_nil_of_length_eq_zero (Option.some.inj nests)
    cases stands with
    | start | link => cases walks
    | whole derivable => simpa [Open.before] using derivable
  | cons token rest ih =>
    rw [nest_cons] at nests
    rw [← List.singleton_append,← List.append_assoc]
    cases due with
    | operand =>
      cases kind : token.kind with
      | identifier | integer =>
        have anOperand : token.isOperand = true := by simp [Token.isOperand,kind]
        rw [alternates_cons (after_operand anOperand)] at walks
        rw [enclose_operand anOperand] at nests
        exact ih (stands.term (.operand anOperand)) valid walks nests
      | lparen =>
        rw [alternates_cons (by rw [kind]; rfl)] at walks
        rw [kind] at nests
        have opened : Open.Valid ((front,token) :: outer) := by
          intro group member
          rcases List.mem_cons.mp member with rfl | member
          · exact ⟨stands,kind⟩
          · exact valid group member
        simpa [Open.before] using ih .start opened walks nests
      | rparen | operator => simp [alternates,Due.after,kind] at walks
    | operator =>
      have derivable : Derivable .expression front := by cases stands; assumption
      cases kind : token.kind with
      | operator =>
        rw [alternates_cons (by rw [kind]; rfl)] at walks
        rw [kind] at nests
        exact ih (.link derivable kind) valid walks nests
      | rparen =>
        rw [alternates_cons (by rw [kind]; rfl)] at walks
        rw [kind] at nests
        cases outer with
        | nil => cases nests
        | cons group outer =>
          obtain ⟨before,opens⟩ := valid group List.mem_cons_self
          have closed := before.term (.group opens kind derivable)
          have outside : Open.Valid outer := fun other member => valid other (.tail _ member)
          simpa [Open.before] using ih closed outside walks nests
      | identifier | integer | lparen => simp [alternates,Due.after,kind] at walks

/-- The walk and the count of groups together decide the grammar. -/
theorem derivable_iff_alternates_nest :
    Derivable .expression tokens ↔ alternates .operand tokens = true ∧ nest 0 tokens = some 0 := by
  constructor
  · intro derivable
    have walks := derivable.alternates []
    rw [List.append_nil] at walks
    exact ⟨walks,derivable.nest 0⟩
  · rintro ⟨walks,nests⟩
    have closed : Open.Valid [] := fun _ member => by cases member
    exact Stands.start.completes closed walks nests

end Reckoner.Grammar
