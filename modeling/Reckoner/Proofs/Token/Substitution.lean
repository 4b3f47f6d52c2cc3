import Reckoner.Proofs.Postfix.Operands
import Reckoner.Proofs.Text.Runs

/-!
# Numerals in the place of names

In an expression no name touches another operand. So a numeral may be put in the place of a name:
the tokens stand where they stood, and only those of the name are exchanged, each with its sign
kept: `Token.tokenize_substitute`.
-/

namespace Reckoner

open Grammar Token

variable {name numeral word text : Text} {tokens : List Token} {token : Token} {due : Due}

namespace Token

/-- A numeral in the place of the name, if the token has that name; its sign stays in front. -/
def substitute (name numeral : Text) (token : Token) : Token :=
  if token.kind = .identifier ∧ token.bare = name then
    ⟨.integer,token.text.takeWhile isSign ++ numeral⟩
  else token

theorem substitute_of_ne (other : token.kind ≠ .identifier) : token.substitute name numeral = token :=
  if_neg fun same => other same.1

theorem operandChange_substitute (name numeral : Text) : OperandChange (substitute name numeral) where
  operand token anOperand := by
    rw [substitute]
    split
    · rfl
    · exact anOperand
  other token noOperand := by
    apply substitute_of_ne
    intro identifier
    simp [isOperand,identifier] at noOperand

theorem Plain.takeWhile_withSign (plain : Plain token) (anOperand : token.isOperand = true)
    (sign : Option Sign) :
    (token.withSign sign).text.takeWhile isSign = sign.toList.map Sign.toChar := by
  have signed : ∀ c ∈ sign.toList.map Sign.toChar, isSign c = true := by
    intro c member
    obtain ⟨sign,_,rfl⟩ := List.mem_map.mp member
    exact isSign_iff.mpr ⟨sign,rfl⟩
  have nothing : token.text.takeWhile isSign = [] := by
    obtain ⟨c,rest,text,_⟩ := plain.text_eq_cons
    simp [text,plain.unsigned anOperand c (by simp [text])]
  rw [withSign,List.takeWhile_append_of_pos signed,nothing,List.append_nil]

theorem substitute_identifier (plain : Plain ⟨.identifier,word⟩) (sign : Option Sign) :
    (withSign sign ⟨.identifier,word⟩).substitute name numeral =
      withSign sign (if word = name then ⟨.integer,numeral⟩ else ⟨.identifier,word⟩) := by
  rw [substitute,withSign_kind,plain.bare_withSign rfl,plain.takeWhile_withSign rfl]
  by_cases same : word = name
  · rw [if_pos ⟨rfl,same⟩,if_pos same]
    rfl
  · rw [if_neg fun both => same both.2,if_neg same]

theorem Plain.substitute_withSign (plain : Plain token) (sign : Option Sign) :
    (token.withSign sign).substitute name numeral =
      (token.substitute name numeral).withSign sign := by
  cases plain with
  | identifier some letters =>
    have plain := Plain.identifier some letters
    have unsigned : Token.substitute name numeral (withSign none _) = _ :=
      substitute_identifier plain none
    rw [withSign_none,withSign_none] at unsigned
    rw [substitute_identifier plain sign,unsigned]
  | integer | operator | lparen | rparen =>
    rw [substitute_of_ne (by simp),substitute_of_ne (by simp)]

theorem Plain.substitute (plain : Plain token) (literal : Plain ⟨.integer,numeral⟩) :
    Plain (token.substitute name numeral) := by
  by_cases identifier : token.kind = .identifier
  · have same := plain
    cases plain with
    | @identifier word =>
      rw [← withSign_none ⟨.identifier,word⟩,substitute_identifier same,withSign_none]
      split
      · exact literal
      · exact same
    | integer | operator | lparen | rparen => cases identifier
  · rwa [substitute_of_ne identifier]

theorem substitute_text (plain : Plain ⟨.identifier,word⟩) :
    (Token.substitute name numeral ⟨.identifier,word⟩).text =
      if word = name then numeral else word := by
  rw [← withSign_none ⟨.identifier,word⟩,substitute_identifier plain,withSign_none]
  split <;> rfl

theorem Plain.head_visible (plain : Plain token) (anOperand : token.isOperand = true) (rest : Text) :
    ∀ c ∈ (token.text ++ rest).head?, isSign c = false ∧ isBlank c = false := by
  obtain ⟨d,later,text,visible⟩ := plain.text_eq_cons
  intro c head
  obtain rfl : d = c := by simpa [text] using head
  exact ⟨plain.unsigned anOperand d (by simp [text]),visible⟩

end Token

namespace Text

theorem substitute_collapseFrom (named : Plain ⟨.identifier,name⟩) (literal : Plain ⟨.integer,numeral⟩)
    (run : Option Sign) (text : Text) :
    (Sign.collapseFrom run text).substitute name numeral =
      Sign.collapseFrom run (text.substitute name numeral) := by
  have letters : ∀ c ∈ name, c.isAlpha = true := by cases named; assumption
  have noLetter (sign : Sign) : sign.toChar.isAlpha = false := by cases sign <;> rfl
  induction text using run_induction generalizing run with
  | nil =>
    cases run with
    | none => rfl
    | some run => exact substitute_cons letters (noLetter run)
  | other c rest other ih =>
    rw [substitute_cons letters other]
    cases signed : isSign c with
    | true =>
      obtain ⟨sign,rfl⟩ := isSign_iff.mp signed
      cases run with
      | none =>
        rw [Sign.collapseFrom_none_sign,Sign.collapseFrom_none_sign]
        exact ih (some sign)
      | some run =>
        rw [Sign.collapseFrom_some_sign,Sign.collapseFrom_some_sign]
        exact ih (some (run * sign))
    | false =>
      have later := ih none
      cases run with
      | none =>
        rw [Sign.collapseFrom_none_other signed,Sign.collapseFrom_none_other signed,
          substitute_cons letters other,later]
      | some run =>
        cases blank : isBlank c with
        | true =>
          rw [Sign.collapseFrom_some_blank blank,Sign.collapseFrom_some_blank blank]
          exact ih (some run)
        | false =>
          rw [Sign.collapseFrom_some_other signed blank,Sign.collapseFrom_some_other signed blank,
            substitute_cons letters (noLetter run),substitute_cons letters other,later]
  | word word rest someLetter inside ends ih =>
    have plain := Plain.identifier someLetter inside
    have exchanged : Plain (Token.substitute name numeral ⟨.identifier,word⟩) := plain.substitute literal
    have anOperand := (operandChange_substitute name numeral).operand ⟨.identifier,word⟩ rfl
    have collapsedEnds : ∀ c ∈ (Sign.collapse rest).head?, c.isAlpha = false := by
      intro c head
      rcases Sign.mem_head?_collapse head with head | signed
      · exact ends c head
      · obtain ⟨sign,rfl⟩ := isSign_iff.mp signed
        exact noLetter sign
    have whole : (Sign.collapse (word ++ rest)).substitute name numeral =
        Sign.collapse ((Token.substitute name numeral ⟨.identifier,word⟩).text ++
          rest.substitute name numeral) := by
      rw [Sign.collapse,Sign.collapse,Sign.collapseFrom_append (plain.unsigned rfl),
        Sign.collapseFrom_append (exchanged.unsigned anOperand),← ih none,substitute_text plain]
      exact substitute_word someLetter inside collapsedEnds
    rw [substitute_word someLetter inside ends,← substitute_text plain]
    cases run with
    | none => exact whole
    | some run =>
      rw [Sign.collapseFrom_some_visible run (plain.head_visible rfl rest),
        Sign.collapseFrom_some_visible run (exchanged.head_visible anOperand _),
        substitute_cons letters (noLetter run),whole]

end Text

namespace Token

/-- In an expression no letter follows a name, so that the name is a maximal run and what is put in
its place is parted from the rest as it was. -/
theorem Spread.substitute (spread : Spread tokens text) (plain : ∀ token ∈ tokens, Plain token)
    (walks : alternates due tokens = true) (named : Plain ⟨.identifier,name⟩) :
    Spread (tokens.map (Token.substitute name numeral)) (text.substitute name numeral) := by
  have letters : ∀ c ∈ name, c.isAlpha = true := by cases named; assumption
  have gapOthers {gap : Text} (blanks : ∀ c ∈ gap, isBlank c = true) :
      ∀ c ∈ gap, c.isAlpha = false := fun c member => isAlpha_of_isBlank (blanks c member)
  induction spread generalizing due with
  | nil gap blanks =>
    have kept : Text.substitute (gap ++ []) name numeral = gap ++ Text.substitute [] name numeral :=
      Text.substitute_append letters (gapOthers blanks)
    simp only [List.append_nil,Text.substitute_nil] at kept
    rw [kept]
    exact .nil gap blanks
  | @cons tokens token gap text blanks spread ih =>
    obtain ⟨next,after,walks⟩ := alternates_cons_iff.mp walks
    obtain ⟨first,others⟩ := List.forall_mem_cons.mp plain
    have later := ih others walks
    rw [Text.substitute_append letters (gapOthers blanks),List.map_cons]
    by_cases identifier : token.kind = .identifier
    · have same := first
      cases first with
      | @identifier word someLetter inside =>
        obtain ⟨_,rfl⟩ := (isOperand_iff_of_after after).mp rfl
        have ends := fun c head => (spread.apart others walks c head).1
        rw [Text.substitute_word someLetter inside ends,← substitute_text same]
        exact .cons gap blanks later
      | integer | operator | lparen | rparen => cases identifier
    · have outside : ∀ c ∈ token.text, c.isAlpha = false := by
        cases first with
        | identifier => exact absurd rfl identifier
        | integer _ decimal =>
          intro c member
          by_contra letter
          have digit := isDigit_of_isAlpha (by simpa using letter)
          simp [decimal c member] at digit
        | operator op => cases op <;> exact List.forall_mem_singleton.mpr rfl
        | lparen | rparen => exact List.forall_mem_singleton.mpr rfl
      rw [Text.substitute_append letters outside,substitute_of_ne identifier]
      exact .cons gap blanks later

theorem Spread.detach {first : Token} {rest : List Token} {sign : Sign}
    (spread : Spread (first.withSign (some sign) :: rest) text) :
    Spread (⟨.operator,[sign.toChar]⟩ :: first :: rest) text := by
  cases spread with
  | cons gap blanks spread => exact .cons gap blanks (.cons [] (by simp) spread)

theorem tokenize_substitute (read : tokenize text = .ok tokens)
    (walks : alternates .operand tokens = true) (named : Plain ⟨.identifier,name⟩)
    (literal : Plain ⟨.integer,numeral⟩) :
    tokenize (text.substitute name numeral) = .ok (tokens.map (substitute name numeral)) := by
  have lexical : ∀ c ∈ text.substitute name numeral, Lexical c := by
    intro c member
    rcases Text.mem_substitute member with before | inside
    · exact (tokenize_eq_ok_iff.mp read).1 c before
    · exact literal.lexical c inside
  have changes := operandChange_substitute name numeral
  have layout : ∀ {due : Due} {words : List Token}, (∀ token ∈ words, Plain token) →
      alternates due words = true → Spread words (Sign.collapse text) →
      scan (Sign.collapse (text.substitute name numeral)) = words.map (substitute name numeral) := by
    intro due words plain walks spread
    have exchanged : Spread (words.map (substitute name numeral)) _ :=
      spread.substitute plain walks named
    have exchangedWalks : alternates due (words.map (substitute name numeral)) = true := by
      rwa [changes.alternates_map]
    rw [Sign.collapse,Text.substitute_collapseFrom named literal] at exchanged
    refine exchanged.scan (List.forall_mem_map.mpr fun token member => ?_) exchangedWalks
    exact (plain token member).substitute literal
  rw [tokenize_of_lexical lexical]
  have spread := (laid_of_tokenize read).spread
  have lexed := lexed_of_tokenize read
  cases lexed with
  | plain plain =>
    rw [layout plain walks spread,attachSign_of_alternates (by rwa [changes.alternates_map])]
  | @signed first rest sign anOperand plain =>
    have words := List.forall_mem_cons.mpr ⟨plain_sign sign,plain⟩
    have goesOn : alternates .operator (⟨.operator,[sign.toChar]⟩ :: first :: rest) = true := walks
    rw [layout words goesOn spread.detach,List.map_cons,List.map_cons,
      substitute_of_ne (by simp),attachSign_sign sign (changes.operand first anOperand),
      List.map_cons,(plain first List.mem_cons_self).substitute_withSign]

end Token
end Reckoner
