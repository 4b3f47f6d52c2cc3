import Reckoner.Proofs.Calculation.Outcome
import Reckoner.Proofs.Rendering.Brackets
import Reckoner.Proofs.Sign.Run

/-!
# Layout

Tokens are laid out with blanks around them, or none, and a run of signs may lead. Collapsing
the signs keeps the layout, and the words of a layout are its tokens.
-/

namespace Reckoner

open Grammar

namespace Token

/-- The tokens stand in the text one after another, with any blanks around them. -/
inductive Spread : List Token → Text → Prop
  | nil (gap : Text) (blanks : ∀ c ∈ gap, isBlank c = true) : Spread [] gap
  | cons (gap : Text) {text : Text} (blanks : ∀ c ∈ gap, isBlank c = true)
      (rest : Spread tokens text) : Spread (token :: tokens) (gap ++ (token.text ++ text))

variable {text : Text} {tokens : List Token} {token : Token} {due : Due}

theorem Spread.indent {gap : Text} (blanks : ∀ c ∈ gap, isBlank c = true)
    (spread : Spread tokens text) : Spread tokens (gap ++ text) := by
  cases spread with
  | nil _ more => exact .nil _ (List.forall_mem_append.mpr ⟨blanks,more⟩)
  | cons _ more rest =>
    rw [← List.append_assoc]
    exact .cons _ (List.forall_mem_append.mpr ⟨blanks,more⟩) rest

/-- Collapsing keeps the layout, also after an open run that an operand or a group ends. -/
theorem Spread.collapse (spread : Spread tokens text) (plain : ∀ token ∈ tokens, Plain token)
    (walks : alternates due tokens = true) :
    Spread tokens (Sign.collapseFrom none text) ∧ (due = .operand → ∀ sign, ∃ rest,
      Sign.collapseFrom (some sign) text = sign.toChar :: rest ∧ Spread tokens rest) := by
  induction spread generalizing due with
  | @nil gap blanks =>
    have unsigned : ∀ c ∈ gap, isSign c = false :=
      fun c member => Sign.isSign_of_isBlank (blanks c member)
    refine ⟨?_,?_⟩
    · rw [← List.append_nil gap,Sign.collapseFrom_append unsigned]
      exact .nil _ (by simpa [Sign.collapseFrom] using blanks)
    · rintro rfl
      cases walks
  | @cons tokens token gap text blanks spread ih =>
    obtain ⟨next,after,walks⟩ := alternates_cons_iff.mp walks
    obtain ⟨first,others⟩ := List.forall_mem_cons.mp plain
    have later := ih others walks
    have unsigned : ∀ c ∈ gap, isSign c = false :=
      fun c member => Sign.isSign_of_isBlank (blanks c member)
    rcases first.sign_or_unsigned with ⟨sign,rfl⟩ | word
    · cases due with
      | operand => cases after
      | operator =>
        cases after
        obtain ⟨rest,collapses,spread⟩ := later.2 rfl sign
        refine ⟨?_,by simp⟩
        rw [Sign.collapseFrom_append unsigned,List.singleton_append,
          Sign.collapseFrom_none_sign,collapses]
        exact .cons _ blanks spread
    · refine ⟨?_,?_⟩
      · rw [Sign.collapseFrom_append unsigned,Sign.collapseFrom_append word]
        exact .cons _ blanks later.1
      · intro _ sign
        obtain ⟨c,rest,spells,visible⟩ := first.text_eq_cons
        have noBlanks : ∀ d ∈ ([] : Text), isBlank d = true := by simp
        exact ⟨_,Sign.collapseFrom_word blanks word spells visible sign text,
          .cons [] noBlanks later.1⟩

theorem Spread.apart (spread : Spread tokens text) (plain : ∀ token ∈ tokens, Plain token)
    (walks : alternates .operator tokens = true) :
    ∀ c ∈ text.head?, c.isAlpha = false ∧ c.isDigit = false := by
  intro c head
  have blankApart : ∀ gap : Text, (∀ d ∈ gap, isBlank d = true) → c ∈ gap →
      c.isAlpha = false ∧ c.isDigit = false :=
    fun gap blanks member => ⟨isAlpha_of_isBlank (blanks c member),isDigit_of_isBlank (blanks c member)⟩
  cases spread with
  | @nil gap blanks => exact blankApart text blanks (List.mem_of_mem_head? head)
  | @cons tokens token gap text blanks spread =>
    obtain ⟨next,after,_⟩ := alternates_cons_iff.mp walks
    have noOperand : token.isOperand = false := by
      by_contra anOperand
      have due := (isOperand_iff_of_after after).mp (by simpa using anOperand)
      simp at due
    obtain ⟨d,spells,letter,digit⟩ := (plain token List.mem_cons_self).symbol noOperand
    cases gap with
    | nil =>
      obtain rfl : d = c := by simpa [spells] using head
      exact ⟨letter,digit⟩
    | cons e gap =>
      obtain rfl : e = c := by simpa using head
      exact blankApart _ blanks List.mem_cons_self

theorem Spread.scan (spread : Spread tokens text) (plain : ∀ token ∈ tokens, Plain token)
    (walks : alternates due tokens = true) : Token.scan text = tokens := by
  induction spread generalizing due with
  | @nil gap blanks =>
    have := scan_blanks blanks []
    simpa using this
  | @cons tokens token gap text blanks spread ih =>
    obtain ⟨next,after,walks⟩ := alternates_cons_iff.mp walks
    obtain ⟨first,others⟩ := List.forall_mem_cons.mp plain
    have cut : ∀ a ∈ token.text.getLast?, ∀ b ∈ text.head?, joins a b = false := by
      intro a last b head
      cases anOperand : token.isOperand with
      | true =>
        obtain ⟨_,rfl⟩ := (isOperand_iff_of_after after).mp anOperand
        obtain ⟨letter,digit⟩ := spread.apart others walks b head
        simp [joins,letter,digit]
      | false =>
        obtain ⟨c,spells,letter,digit⟩ := first.symbol anOperand
        obtain rfl : c = a := by simpa [spells] using last
        simp [joins,letter,digit]
    rw [scan_blanks blanks,scan_append cut,first.scan,ih others walks]
    rfl

theorem Spread.lexical (spread : Spread tokens text) (plain : ∀ token ∈ tokens, Plain token) :
    ∀ c ∈ text, Lexical c := by
  induction spread with
  | nil _ blanks => exact fun c member => lexical_of_isBlank (blanks c member)
  | cons _ blanks _ ih =>
    obtain ⟨first,others⟩ := List.forall_mem_cons.mp plain
    refine List.forall_mem_append.mpr ⟨fun c member => lexical_of_isBlank (blanks c member),?_⟩
    exact List.forall_mem_append.mpr ⟨first.lexical,ih others⟩

theorem attachSign_sign {first : Token} (sign : Sign) (anOperand : first.isOperand = true) :
    attachSign (⟨.operator,[sign.toChar]⟩ :: first :: rest) = first.withSign (some sign) :: rest := by
  have aSign := isSignOperator_iff.mpr ⟨sign,rfl⟩
  simp only [attachSign,aSign,anOperand]
  rfl

theorem attachSign_of_alternates (walks : alternates .operand tokens = true) :
    attachSign tokens = tokens := by
  apply attachSign_of_attached
  rintro first second rest rfl aSign
  obtain ⟨sign,rfl⟩ := isSignOperator_iff.mp aSign
  cases walks

theorem isOperand_of_alternates (walks : alternates .operand (token :: tokens) = true)
    (noGroup : token.kind ≠ .lparen) : token.isOperand = true := by
  obtain ⟨next,after,_⟩ := alternates_cons_iff.mp walks
  rw [isOperand_iff]
  cases kind : token.kind with
  | identifier => exact .inl rfl
  | integer => exact .inr rfl
  | lparen => contradiction
  | operator | rparen => rw [kind] at after; cases after

theorem Spread.tokenize (spread : Spread tokens text) (plain : ∀ token ∈ tokens, Plain token)
    (walks : alternates .operand tokens = true) : tokenize text = .ok tokens := by
  have collapsed := (spread.collapse plain walks).1
  rw [tokenize_of_lexical (spread.lexical plain),Sign.collapse,collapsed.scan plain walks,
    attachSign_of_alternates walks]

theorem Spread.tokenize_run {first : Token} {rest : List Token} {run : Text}
    (spread : Spread (first :: rest) text) (plain : ∀ token ∈ first :: rest, Plain token)
    (walks : alternates .operand (first :: rest) = true) (anOperand : first.isOperand = true)
    (marks : ∀ c ∈ run, isSign c = true ∨ isBlank c = true) (signed : ∃ c ∈ run, isSign c = true) :
    Token.tokenize (run ++ text) = .ok (first.withSign (some (Sign.parity run)) :: rest) := by
  have lexical : ∀ c ∈ run ++ text, Lexical c := List.forall_mem_append.mpr
    ⟨fun c member => lexical_of_mark (marks c member),spread.lexical plain⟩
  obtain ⟨gap,blanks,collapses⟩ := Sign.collapse_run marks signed text
  obtain ⟨later,ends,restSpread⟩ := (spread.collapse plain walks).2 rfl (Sign.parity run)
  have layout : Spread (⟨.operator,[(Sign.parity run).toChar]⟩ :: first :: rest)
      (Sign.collapse (run ++ text)) := by
    rw [collapses,ends]
    exact .cons _ blanks restSpread
  have allPlain := List.forall_mem_cons.mpr ⟨plain_sign (Sign.parity run),plain⟩
  have goesOn : alternates .operator
      (⟨.operator,[(Sign.parity run).toChar]⟩ :: first :: rest) = true := walks
  rw [tokenize_of_lexical lexical,layout.scan allPlain goesOn,attachSign_sign _ anOperand]

end Token

theorem Grammar.Parses.accepted {text : Text} (parses : Parses .sum tokens tree)
    (reads : Token.tokenize text = .ok tokens) :
    isExpression text = true ∧
      (Token.tokenize text).bind Reckoner.toPostfix = .ok tree.postorder := by
  rw [isExpression,reads]
  exact ⟨(derivable_iff_alternates_nest.mp parses.derivable).1,parses.toPostfix⟩

/-- Whatever parentheses and blanks are added, a written tree comes back as its postorder, and
a run of signs in front of its first leaf as the sign of that leaf. -/
theorem Grammar.Written.toPostfix_tokenize {wrapped : Bool} {lead text : Text}
    (written : Written wrapped tree tokens) (spread : Token.Spread tokens text)
    (marks : ∀ c ∈ lead, isSign c = true ∨ isBlank c = true)
    (bare : (∃ c ∈ lead, isSign c = true) → ∀ first ∈ tokens.head?, first.kind ≠ .lparen) :
    isExpression (lead ++ text) = true ∧ (Token.tokenize (lead ++ text)).bind toPostfix =
      .ok (tree.withSign (Sign.ofRun? lead)).postorder := by
  have parses : Parses .sum tokens tree := written.parses.loosen (Layer.level_le_sum _)
  have walks := (derivable_iff_alternates_nest.mp parses.derivable).1
  by_cases signed : ∃ c ∈ lead, isSign c = true
  · obtain ⟨first,rest,rfl⟩ := List.exists_cons_of_ne_nil parses.ne_nil
    have anOperand := Token.isOperand_of_alternates walks (bare signed first rfl)
    have run : Sign.ofRun? lead = some (Sign.parity lead) := if_pos (List.any_eq_true.mpr signed)
    rw [run]
    exact (parses.withSign _ rfl anOperand).accepted
      (spread.tokenize_run written.plain walks anOperand marks signed)
  · have blanks : ∀ c ∈ lead, isBlank c = true := by
      intro c member
      exact (marks c member).resolve_left fun sign => signed ⟨c,member,sign⟩
    have noRun : Sign.ofRun? lead = none := if_neg (by simpa using signed)
    rw [noRun,Tree.withSign_none]
    exact parses.accepted ((spread.indent blanks).tokenize written.plain walks)

theorem Grammar.Written.toPostfix_tokenize_of_differences :
    isExpression "- -- 8-( (x) - 3)".toList = true ∧
      (Token.tokenize "- -- 8-( (x) - 3)".toList).bind toPostfix =
        .ok [⟨.integer,"-8".toList⟩,⟨.identifier,"x".toList⟩,⟨.integer,"3".toList⟩,
          Operator.sub.token,Operator.sub.token] := by
  have eight : Written false (.leaf ⟨.integer,['8']⟩) _ := .leaf (.integer (by simp) (by simp)) rfl
  have name : Written false (.leaf ⟨.identifier,['x']⟩) _ :=
    .leaf (.identifier (by simp) (by simp)) rfl
  have three : Written false (.leaf ⟨.integer,['3']⟩) _ := .leaf (.integer (by simp) (by simp)) rfl
  have inner : Written false (.node Operator.sub.token _ _) _ :=
    .node name.wrap three (fun _ _ _ => rfl) (fun _ root _ => by cases root)
  have whole : Written false (.node Operator.sub.token _ _) _ :=
    .node eight inner.wrap (fun _ root _ => by cases root) (fun _ _ _ => rfl)
  have blank : ∀ c ∈ [' '], isBlank c = true := List.forall_mem_singleton.mpr rfl
  refine @Written.toPostfix_tokenize _ _ _ "- -- ".toList "8-( (x) - 3)".toList whole ?_
    (by simp; decide) (fun _ => by simp)
  exact .cons [] (by simp) <| .cons [] (by simp) <| .cons [] (by simp) <| .cons [' '] blank <|
    .cons [] (by simp) <| .cons [] (by simp) <| .cons [' '] blank <| .cons [' '] blank <|
    .cons [] (by simp) <| .nil [] (by simp)

end Reckoner
