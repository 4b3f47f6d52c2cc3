import Reckoner.Proofs.Calculation.Outcome
import Reckoner.Proofs.Sign.Collapse

/-!
# Groups of texts

A text in parentheses has the outcome of the text, and two of them with an operator in between
have the outcome of the operator on their values: `Context.calculate_composes`. Parentheses and
operators part what is read, so the tokens of the whole are those of its parts. Only a sign that
an operand carries has no place in a group.
-/

namespace Reckoner

open Grammar

variable {text a b : Text} {tokens : List Token} {token : Token}

def Text.grouped (text : Text) : Text := '(' :: text ++ [')']

namespace Token

/-- The operand has a sign in front of it. -/
def CarriesSign (token : Token) : Prop :=
  token.isOperand = true ∧ ∃ c ∈ token.text.head?, isSign c = true

theorem Plain.not_carriesSign (plain : Plain token) : ¬ token.CarriesSign := by
  rintro ⟨anOperand,c,head,signed⟩
  have unsigned := plain.unsigned anOperand c (List.mem_of_mem_head? head)
  simp [unsigned] at signed

theorem carriesSign_withSign (anOperand : token.isOperand = true) (sign : Sign) :
    (token.withSign (some sign)).CarriesSign :=
  ⟨anOperand,sign.toChar,rfl,isSign_iff.mpr ⟨sign,rfl⟩⟩

def grouped (tokens : List Token) : List Token := ⟨.lparen,['(']⟩ :: tokens ++ [⟨.rparen,[')']⟩]

theorem scan_collapse_symbol {c : Char} {kind : Kind} (signed : isSign c = false)
    (letter : c.isAlpha = false) (digit : c.isDigit = false) (kinds : kindOf? c = some kind)
    (front back : Text) :
    scan (Sign.collapse (front ++ c :: back)) =
      scan (Sign.collapse front) ++ ⟨kind,[c]⟩ :: scan (Sign.collapse back) := by
  have visible : isBlank c = false := by
    by_contra blank
    simp [kindOf?_of_isBlank (by simpa using blank)] at kinds
  have alone (other : Char) : joins c other = false := by simp [joins,letter,digit]
  have before : ∀ a ∈ (Sign.collapse front).getLast?, ∀ d ∈ (c :: Sign.collapse back).head?,
      joins a d = false := by
    rintro a _ d ⟨⟩
    rw [joins_comm,alone]
  rw [Sign.collapse_visible signed visible,scan_append before,scan_cons alone,
    scan_word kinds (.singleton c)]
  rfl

theorem scan_collapse_grouped (text rest : Text) :
    scan (Sign.collapse (text.grouped ++ rest)) =
      grouped (scan (Sign.collapse text)) ++ scan (Sign.collapse rest) := by
  have opens := scan_collapse_symbol rfl rfl rfl (c := '(') rfl [] (text ++ ')' :: rest)
  have closes := scan_collapse_symbol rfl rfl rfl (c := ')') rfl text rest
  rw [closes] at opens
  simpa [Text.grouped,grouped,Sign.collapse,Sign.collapseFrom] using opens

theorem scan_collapse_operator (op : Operator) (text : Text) :
    scan (Sign.collapse (op.text ++ text.grouped)) =
      ⟨.operator,op.text⟩ :: grouped (scan (Sign.collapse text)) := by
  have reads : scan (Sign.collapse op.text) = [⟨.operator,op.text⟩] := by cases op <;> rfl
  have opens := scan_collapse_symbol rfl rfl rfl (c := '(') rfl op.text (text ++ [')'])
  have closes := scan_collapse_symbol rfl rfl rfl (c := ')') rfl text []
  rw [closes,reads] at opens
  simpa [Text.grouped,grouped,Sign.collapse,Sign.collapseFrom] using opens

theorem lexical_grouped (lexical : ∀ c ∈ text, Lexical c) : ∀ c ∈ text.grouped, Lexical c := by
  have left : Lexical '(' := isLexical_iff.mp rfl
  have right : Lexical ')' := isLexical_iff.mp rfl
  simpa [Text.grouped,or_imp,forall_and,left,right] using lexical

theorem attachSign_grouped (tokens rest : List Token) :
    attachSign (grouped tokens ++ rest) = grouped tokens ++ rest := by
  apply attachSign_of_attached
  rintro first second later same aSign
  obtain rfl : ⟨.lparen,['(']⟩ = first := (List.cons.inj same).1
  cases aSign

theorem tokenize_grouped (lexical : ∀ c ∈ text, Lexical c) :
    tokenize text.grouped = .ok (grouped (scan (Sign.collapse text))) := by
  have words := scan_collapse_grouped text []
  rw [List.append_nil,show scan (Sign.collapse []) = [] from rfl] at words
  rw [tokenize_of_lexical (lexical_grouped lexical),words,attachSign_grouped,List.append_nil]

theorem tokenize_groups (lexicalA : ∀ c ∈ a, Lexical c) (lexicalB : ∀ c ∈ b, Lexical c)
    (op : Operator) :
    tokenize (a.grouped ++ op.text ++ b.grouped) =
      .ok (grouped (scan (Sign.collapse a)) ++ ⟨.operator,op.text⟩ ::
        grouped (scan (Sign.collapse b))) := by
  have lexical : ∀ c ∈ a.grouped ++ (op.text ++ b.grouped), Lexical c := by
    have linked := List.forall_mem_append.mpr ⟨(Plain.operator op).lexical,lexical_grouped lexicalB⟩
    exact List.forall_mem_append.mpr ⟨lexical_grouped lexicalA,linked⟩
  rw [List.append_assoc,tokenize_of_lexical lexical,scan_collapse_grouped,scan_collapse_operator,
    attachSign_grouped]

end Token

/-- The first token of the text is an operand with a sign. -/
def Text.LedBySign (text : Text) : Prop :=
  ∃ first rest, Token.tokenize text = .ok (first :: rest) ∧ first.CarriesSign

namespace Token

theorem scan_of_not_ledBySign (read : tokenize text = .ok tokens) (unled : ¬ text.LedBySign) :
    scan (Sign.collapse text) = tokens := by
  obtain ⟨_,rfl⟩ := tokenize_eq_ok_iff.mp read
  rcases attachSign_cases (scan (Sign.collapse text)) with
    ⟨sign,first,rest,_,anOperand,attaches⟩ | ⟨same,_⟩
  · rw [attaches] at read
    exact (unled ⟨_,rest,read,carriesSign_withSign anOperand sign⟩).elim
  · exact same.symm

theorem scan_of_ledBySign (led : text.LedBySign) :
    ∃ sign rest, scan (Sign.collapse text) = ⟨.operator,[Sign.toChar sign]⟩ :: rest := by
  obtain ⟨first,rest,read,carries⟩ := led
  obtain ⟨_,attached⟩ := tokenize_eq_ok_iff.mp read
  rcases attachSign_cases (scan (Sign.collapse text)) with ⟨sign,_,_,words,_,_⟩ | ⟨same,_⟩
  · exact ⟨sign,_,words⟩
  · have words := same.symm.trans attached
    have plain : Plain first := plain_of_mem_scan (words ▸ List.mem_cons_self)
    exact (plain.not_carriesSign carries).elim

end Token

theorem Grammar.Parses.grouped (parses : Parses .sum tokens tree) :
    Parses .atom (Token.grouped tokens) tree := .group rfl rfl parses

namespace Context

/-- The calculation fails since the text is no expression. -/
def Invalid (context : Context) (text : Text) : Prop :=
  ∃ failure, context.calculate text = .error failure ∧ failure.kind = .invalidExpression

theorem invalid_of_alternates {context : Context} (read : Token.tokenize text = .ok tokens)
    (refused : alternates .operand tokens = false) : context.Invalid text := by
  refine ⟨.misplacedToken,?_,rfl⟩
  rw [calculate,Stages.ofText_of_read read,refused]
  rfl

theorem parses_of_valid {context : Context} (valid : ¬ context.Invalid text) :
    ∃ tokens tree, Token.tokenize text = .ok tokens ∧ Parses .sum tokens tree := by
  rcases Stages.ofText_cases text with ⟨tokens,tree,read,parses,_⟩ | ⟨failure,refused,_⟩
  · exact ⟨tokens,tree,read,parses⟩
  · refine (valid ⟨failure,?_,Stages.kind_of_ofText refused⟩).elim
    rw [calculate,refused]
    rfl

/-- Parentheses change no outcome, and an operator between two groups acts on their values. A
sign that leads makes a group invalid. -/
theorem calculate_composes (context : Context) (aValid : ¬ context.Invalid a)
    (bValid : ¬ context.Invalid b) :
    (¬ a.LedBySign → context.calculate a.grouped = context.calculate a) ∧
    (¬ a.LedBySign → ¬ b.LedBySign → ∀ op : Operator,
      context.calculate (a.grouped ++ op.text ++ b.grouped) = do
        let x ← context.calculate a
        let y ← context.calculate b
        applyText context.resultBits op.text x y) ∧
    (a.LedBySign → context.Invalid a.grouped) := by
  obtain ⟨first,left,readA,parsesA⟩ := parses_of_valid aValid
  obtain ⟨second,right,readB,parsesB⟩ := parses_of_valid bValid
  have lexicalA := (Token.tokenize_eq_ok_iff.mp readA).1
  have lexicalB := (Token.tokenize_eq_ok_iff.mp readB).1
  have reads := Token.tokenize_grouped lexicalA
  refine ⟨fun unled => ?_,fun unled unledB op => ?_,fun led => ?_⟩
  · rw [Token.scan_of_not_ledBySign readA unled] at reads
    have whole : Parses .sum _ left := parsesA.grouped.loosen (Layer.level_atom_le _)
    rw [context.calculate_of_parses reads whole,context.calculate_of_parses readA parsesA]
  · have reads := Token.tokenize_groups lexicalA lexicalB op
    rw [Token.scan_of_not_ledBySign readA unled,Token.scan_of_not_ledBySign readB unledB] at reads
    have whole : Parses (.ofOperator op) _ (.node ⟨.operator,op.text⟩ left right) :=
      .chain rfl (Operator.ofText?_text op) (parsesA.grouped.loosen (Layer.level_atom_le _))
        (parsesB.grouped.loosen (Layer.level_atom_le _))
    rw [context.calculate_of_parses reads (whole.loosen (Layer.level_le_sum _)),
      context.calculate_of_parses readA parsesA,context.calculate_of_parses readB parsesB]
    rfl
  · obtain ⟨sign,rest,words⟩ := Token.scan_of_ledBySign led
    rw [words] at reads
    exact invalid_of_alternates reads rfl

theorem calculate_composes_of_differences :
    let context : Context := { bindings := ⟨[("n".toList,3)]⟩ }
    let a : Text := "7 -- 2 - 1 ".toList
    let b : Text := "n ^2-1".toList
    (¬ context.Invalid a ∧ ¬ context.Invalid b ∧ ¬ a.LedBySign ∧ ¬ b.LedBySign) ∧
      context.calculate "(7 -- 2 - 1 )-(n ^2-1)".toList = .ok 0 ∧
      context.Invalid "(- n)".toList := by
  intro context a b
  have valid {text : Text} {n : Int} (succeeds : context.calculate text = .ok n) :
      ¬ context.Invalid text := by
    rintro ⟨failure,fails,_⟩
    cases succeeds.symm.trans fails
  have aValid : ¬ context.Invalid a := valid (n := 8) (by decide +kernel)
  have bValid : ¬ context.Invalid b := valid (n := 8) (by decide +kernel)
  have unledA : ¬ a.LedBySign := by
    rintro ⟨first,rest,reads,_,c,head,signed⟩
    cases reads
    cases head
    cases signed
  have unledB : ¬ b.LedBySign := by
    rintro ⟨first,rest,reads,_,c,head,signed⟩
    cases reads
    cases head
    cases signed
  have led : Text.LedBySign "- n".toList := ⟨_,_,rfl,rfl,'-',rfl,rfl⟩
  have signedValid : ¬ context.Invalid "- n".toList := valid (n := -3) (by decide +kernel)
  obtain ⟨_,differ,_⟩ := calculate_composes context aValid bValid
  refine ⟨⟨aValid,bValid,unledA,unledB⟩,(differ unledA unledB .sub).trans ?_,?_⟩
  · decide +kernel
  · exact (calculate_composes context signedValid bValid).2.2 led

end Context
end Reckoner
