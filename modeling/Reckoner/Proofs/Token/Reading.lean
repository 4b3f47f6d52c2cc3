import Reckoner.Proofs.Grammar.Layering
import Reckoner.Proofs.Token.Words

/-!
# What a text is read as

Reading fails for a character outside the alphabet of expressions and for nothing else. It gives
plain tokens, of which the first may carry a sign if it is an operand: `Token.lexed_of_tokenize`.
-/

namespace Reckoner.Token

/-- A token with a sign, or none, in front of its text. -/
def withSign (sign : Option Sign) (token : Token) : Token :=
  ⟨token.kind,sign.toList.map Sign.toChar ++ token.text⟩

@[simp] theorem withSign_none (token : Token) : token.withSign none = token := rfl

@[simp] theorem withSign_kind (sign : Option Sign) (token : Token) :
    (token.withSign sign).kind = token.kind := rfl

@[simp] theorem withSign_isOperand (sign : Option Sign) (token : Token) :
    (token.withSign sign).isOperand = token.isOperand := rfl

/-- An operand as it is read: a name or a number, with a sign in front or none. -/
def Signed (token : Token) : Prop :=
  ∃ sign plain, Plain plain ∧ plain.isOperand = true ∧ token = plain.withSign sign

theorem Plain.unsigned (plain : Plain token) (anOperand : token.isOperand = true) :
    ∀ c ∈ token.text, isSign c = false := by
  intro c member
  by_contra signed
  obtain ⟨sign,rfl⟩ := isSign_iff.mp (by simpa using signed)
  cases plain with
  | identifier _ all => cases sign <;> cases all _ member
  | integer _ all => cases sign <;> cases all _ member
  | operator | lparen | rparen => cases anOperand

theorem plain_sign (sign : Sign) : Plain ⟨.operator,[sign.toChar]⟩ := by
  cases sign with
  | plus => exact .operator .add
  | minus => exact .operator .sub

theorem Plain.sign_or_unsigned (plain : Plain token) :
    (∃ sign : Sign, token = ⟨.operator,[sign.toChar]⟩) ∨ ∀ c ∈ token.text, isSign c = false := by
  cases plain with
  | identifier some all => exact .inr (Plain.unsigned (.identifier some all) rfl)
  | integer some all => exact .inr (Plain.unsigned (.integer some all) rfl)
  | lparen | rparen => exact .inr (List.forall_mem_singleton.mpr rfl)
  | operator op =>
    cases op with
    | add => exact .inl ⟨.plus,rfl⟩
    | sub => exact .inl ⟨.minus,rfl⟩
    | mul | div | pow => exact .inr (List.forall_mem_singleton.mpr rfl)

theorem Plain.solid (plain : Plain token) : ∀ c ∈ token.text, isBlank c = false := by
  cases plain with
  | identifier _ all =>
    intro c member
    by_contra blank
    have letter := isAlpha_of_isBlank (by simpa using blank)
    simp [all c member] at letter
  | integer _ all =>
    intro c member
    by_contra blank
    have digit := isDigit_of_isBlank (by simpa using blank)
    simp [all c member] at digit
  | lparen | rparen => exact List.forall_mem_singleton.mpr rfl
  | operator op => cases op <;> exact List.forall_mem_singleton.mpr rfl

theorem Plain.text_ne_nil (plain : Plain token) : token.text ≠ [] := by
  cases plain with
  | identifier some | integer some => exact some
  | lparen | rparen => exact List.cons_ne_nil _ _
  | operator op => cases op <;> exact List.cons_ne_nil _ _

theorem Plain.text_eq_cons (plain : Plain token) :
    ∃ c rest, token.text = c :: rest ∧ isBlank c = false := by
  obtain ⟨c,rest,text⟩ := List.exists_cons_of_ne_nil plain.text_ne_nil
  exact ⟨c,rest,text,plain.solid c (by simp [text])⟩

theorem Plain.symbol (plain : Plain token) (anOperand : token.isOperand = false) :
    ∃ c, token.text = [c] ∧ c.isAlpha = false ∧ c.isDigit = false := by
  cases plain with
  | identifier | integer => cases anOperand
  | lparen | rparen => exact ⟨_,rfl,rfl,rfl⟩
  | operator op => cases op <;> exact ⟨_,rfl,rfl,rfl⟩

theorem Plain.dropWhile_isSign (plain : Plain token) (anOperand : token.isOperand = true) :
    token.text.dropWhile isSign = token.text := by
  have unsigned := plain.unsigned anOperand
  cases text : token.text with
  | nil => rfl
  | cons c rest => simp [unsigned c (by simp [text])]

theorem Plain.bare_withSign (plain : Plain token) (anOperand : token.isOperand = true)
    (sign : Option Sign) : (token.withSign sign).bare = token.text := by
  rw [bare,withSign_isOperand,if_pos anOperand]
  cases sign with
  | none => exact plain.dropWhile_isSign anOperand
  | some sign => cases sign <;> exact plain.dropWhile_isSign anOperand

theorem Plain.sign_withSign (plain : Plain token) (anOperand : token.isOperand = true)
    (sign : Option Sign) : (token.withSign sign).sign = sign.getD .plus := by
  rw [Token.sign,withSign_isOperand,anOperand]
  cases sign with
  | some sign => cases sign <;> rfl
  | none =>
    have unsigned := plain.unsigned anOperand
    cases text : token.text with
    | nil => simp [text]
    | cons c rest =>
      have other : c ≠ '-' := by
        rintro rfl
        cases unsigned '-' (by simp [text])
      simp [text,other]

/-- The characters of which expressions are made. -/
def Lexical (c : Char) : Prop :=
  c.isAlpha = true ∨ c.isDigit = true ∨ c ∈ "+-*/^()".toList ∨ isBlank c = true

theorem isLexical_iff {c : Char} : isLexical c = true ↔ Lexical c := by
  constructor
  · intro lexical
    by_contra stray
    simp only [Lexical,not_or] at stray
    obtain ⟨letter,digit,other,blank⟩ := stray
    simp at other
    simp [isLexical,kindOf?,isOperatorChar,letter,digit,other,blank] at lexical
  · rintro (letter | digit | other | blank)
    · simp [isLexical,kindOf?_of_isAlpha letter]
    · simp [isLexical,kindOf?_of_isDigit digit]
    · simp at other
      rcases other with rfl | rfl | rfl | rfl | rfl | rfl | rfl <;> rfl
    · simp [isLexical,blank]

theorem lexical_of_isBlank {c : Char} (blank : isBlank c = true) : Lexical c :=
  .inr (.inr (.inr blank))

theorem lexical_of_isSign {c : Char} (signed : isSign c = true) : Lexical c := by
  obtain ⟨sign,rfl⟩ := isSign_iff.mp signed
  apply isLexical_iff.mp
  cases sign <;> rfl

theorem lexical_of_mark {c : Char} (mark : isSign c = true ∨ isBlank c = true) : Lexical c :=
  mark.elim lexical_of_isSign lexical_of_isBlank

theorem Plain.lexical (plain : Plain token) : ∀ c ∈ token.text, Lexical c := by
  cases plain with
  | identifier _ all => exact fun c member => .inl (all c member)
  | integer _ all => exact fun c member => .inr (.inl (all c member))
  | lparen | rparen => exact List.forall_mem_singleton.mpr (isLexical_iff.mp rfl)
  | operator op => cases op <;> exact List.forall_mem_singleton.mpr (isLexical_iff.mp rfl)

/-- Tokens as a text is read: plain ones, but the first may be an operand with a sign. -/
inductive Lexed : List Token → Prop
  | plain (plain : ∀ token ∈ tokens, Plain token) : Lexed tokens
  | signed (sign : Sign) (anOperand : first.isOperand = true)
      (plain : ∀ token ∈ first :: rest, Plain token) : Lexed (first.withSign sign :: rest)

theorem tokenize_of_lexical {text : Text} (lexical : ∀ c ∈ text, Lexical c) :
    tokenize text = .ok (attachSign (scan (Sign.collapse text))) := by
  have all : text.all isLexical = true :=
    List.all_eq_true.mpr fun c member => isLexical_iff.mpr (lexical c member)
  simp [tokenize,all]

theorem tokenize_of_not_lexical {text : Text} (stray : ∃ c ∈ text, ¬ Lexical c) :
    tokenize text = .error .strayCharacter := by
  obtain ⟨c,member,stray⟩ := stray
  have some : text.all isLexical = false :=
    List.all_eq_false.mpr ⟨c,member,fun lexical => stray (isLexical_iff.mp lexical)⟩
  simp [tokenize,some]

theorem tokenize_eq_ok_iff {text : Text} : tokenize text = .ok tokens ↔
    (∀ c ∈ text, Lexical c) ∧ attachSign (scan (Sign.collapse text)) = tokens := by
  by_cases lexical : ∀ c ∈ text, Lexical c
  · rw [tokenize_of_lexical lexical,Except.ok.injEq]
    exact (and_iff_right lexical).symm
  · rw [tokenize_of_not_lexical (by simpa using lexical)]
    simp [lexical]

theorem isSignOperator_iff {token : Token} :
    token.isSignOperator = true ↔ ∃ sign : Sign, token = ⟨.operator,[sign.toChar]⟩ := by
  obtain ⟨kind,text⟩ := token
  constructor
  · intro aSign
    simp only [isSignOperator,Bool.and_eq_true,Bool.or_eq_true,decide_eq_true_eq] at aSign
    obtain ⟨rfl,rfl | rfl⟩ := aSign
    exacts [⟨.plus,rfl⟩,⟨.minus,rfl⟩]
  · rintro ⟨sign,same⟩
    cases same
    cases sign <;> rfl

theorem attachSign_cases (tokens : List Token) :
    (∃ sign first rest, tokens = ⟨.operator,[Sign.toChar sign]⟩ :: first :: rest ∧
        first.isOperand = true ∧ attachSign tokens = first.withSign (some sign) :: rest) ∨
      attachSign tokens = tokens ∧ ∀ first second rest, tokens = first :: second :: rest →
        first.isSignOperator = true → second.isOperand = false := by
  rw [attachSign.eq_def]
  split
  next first second rest =>
    split
    next attaches =>
      obtain ⟨aSign,anOperand⟩ := Bool.and_eq_true _ _ ▸ attaches
      obtain ⟨sign,rfl⟩ := isSignOperator_iff.mp aSign
      exact .inl ⟨sign,second,rest,rfl,anOperand,rfl⟩
    next apart =>
      refine .inr ⟨rfl,?_⟩
      rintro _ _ _ same aSign
      cases same
      simpa [aSign] using apart
  next short => exact .inr ⟨rfl,fun first second rest same => absurd same (short first second rest)⟩

theorem attachSign_of_attached {tokens : List Token} (attached : ∀ first second rest, tokens = first :: second :: rest →
    first.isSignOperator = true → second.isOperand = false) : attachSign tokens = tokens := by
  rcases attachSign_cases tokens with ⟨sign,first,rest,rfl,anOperand,_⟩ | ⟨same,_⟩
  · have aSign := isSignOperator_iff.mpr ⟨sign,rfl⟩
    simp [attached _ first rest rfl aSign] at anOperand
  · exact same

theorem lexed_attachSign {tokens : List Token} (plain : ∀ token ∈ tokens, Plain token) :
    Lexed (attachSign tokens) := by
  rcases attachSign_cases tokens with ⟨sign,first,rest,rfl,anOperand,attaches⟩ | ⟨same,_⟩
  · rw [attaches]
    exact .signed sign anOperand fun token member => plain token (List.mem_cons_of_mem _ member)
  · rw [same]
    exact .plain plain

theorem lexed_of_tokenize {text : Text} (read : tokenize text = .ok tokens) : Lexed tokens := by
  obtain ⟨_,rfl⟩ := tokenize_eq_ok_iff.mp read
  exact lexed_attachSign fun token member => plain_of_mem_scan member

/-- A sign attaches to operands only, so operators keep their texts. -/
theorem Lexed.named (lexed : Lexed tokens) : Grammar.Named tokens := by
  have plainly : ∀ token, Plain token → token.kind = .operator →
      ∃ op, Operator.ofText? token.text = some op := by
    intro token plain anOperator
    cases plain with
    | operator op => exact ⟨op,Operator.ofText?_text op⟩
    | identifier | integer | lparen | rparen => cases anOperator
  intro token member anOperator
  cases lexed with
  | plain plain => exact plainly token (plain token member) anOperator
  | signed sign anOperand plain =>
    rcases List.mem_cons.mp member with rfl | member
    · rw [withSign_kind] at anOperator
      simp [isOperand,anOperator] at anOperand
    · exact plainly token (plain token (List.mem_cons_of_mem _ member)) anOperator

theorem Lexed.operand (lexed : Lexed tokens) (member : token ∈ tokens)
    (anOperand : token.isOperand = true) : Signed token := by
  cases lexed with
  | plain plain => exact ⟨none,token,plain token member,anOperand,rfl⟩
  | @signed first rest sign firstOperand plain =>
    rcases List.mem_cons.mp member with rfl | member
    · exact ⟨sign,first,plain first List.mem_cons_self,firstOperand,rfl⟩
    · exact ⟨none,token,plain token (List.mem_cons_of_mem _ member),anOperand,rfl⟩

end Reckoner.Token
