import Reckoner.Proofs.Rendering.Layout
import Reckoner.Proofs.Sign.Collapse

/-!
# Where tokens stand

The tokens of a text stand in its collapse one after another with nothing but blanks between
them, and no name or number goes on at either end: `Token.tokenize_exact`.
-/

namespace Reckoner.Token

/-- Tokens spread over a text in which none of them goes on where it ends. -/
inductive Laid : List Token → Text → Prop
  | nil (gap : Text) (blanks : ∀ c ∈ gap, isBlank c = true) : Laid [] gap
  | cons (gap : Text) {text : Text} (blanks : ∀ c ∈ gap, isBlank c = true)
      (ends : ∀ a ∈ token.text.getLast?, ∀ b ∈ text.head?, joins a b = false)
      (rest : Laid tokens text) : Laid (token :: tokens) (gap ++ (token.text ++ text))

variable {text front back : Text} {tokens before after : List Token} {token first second : Token}

theorem Laid.spread (laid : Laid tokens text) : Spread tokens text := by
  induction laid with
  | nil gap blanks => exact .nil gap blanks
  | cons gap blanks _ _ ih => exact .cons gap blanks ih

theorem Laid.indent {gap : Text} (blanks : ∀ c ∈ gap, isBlank c = true) (laid : Laid tokens text) :
    Laid tokens (gap ++ text) := by
  cases laid with
  | nil _ more => exact .nil _ (List.forall_mem_append.mpr ⟨blanks,more⟩)
  | cons _ more ends rest =>
    rw [← List.append_assoc]
    exact .cons _ (List.forall_mem_append.mpr ⟨blanks,more⟩) ends rest

theorem ofWord?_of_lexical {word : Text} (someChar : word ≠ []) (lexical : ∀ c ∈ word, Lexical c)
    (chain : word.IsChain fun a b => joins a b = true) :
    (∃ c, word = [c] ∧ isBlank c = true ∧ ofWord? word = none) ∨
      ∃ kind, ofWord? word = some ⟨kind,word⟩ := by
  obtain ⟨c,rest,rfl⟩ := List.exists_cons_of_ne_nil someChar
  cases kinds : kindOf? c with
  | some kind => exact .inr ⟨kind,by simp [ofWord?,kinds]⟩
  | none =>
    have blank : isBlank c = true := by
      have lexical := isLexical_iff.mpr (lexical c List.mem_cons_self)
      simpa [isLexical,kinds] using lexical
    obtain rfl := eq_nil_of_chain (isAlpha_of_isBlank blank) (isDigit_of_isBlank blank) chain
    exact .inl ⟨c,rfl,blank,by simp [ofWord?,kinds]⟩

theorem laid_scan (lexical : ∀ c ∈ text, Lexical c) : Laid (scan text) text := by
  have words : ∀ word ∈ text.splitBy joins, (∃ c, word = [c] ∧ isBlank c = true ∧ ofWord? word = none) ∨
      ∃ kind, ofWord? word = some ⟨kind,word⟩ := by
    intro word member
    apply ofWord?_of_lexical (List.ne_nil_of_mem_splitBy member) _ (List.isChain_of_mem_splitBy member)
    intro c inside
    apply lexical
    rw [← List.flatten_splitBy joins text]
    exact List.mem_flatten.mpr ⟨word,member,inside⟩
  have apart := List.isChain_getLast_head_splitBy joins text
  rw [scan]
  nth_rewrite 2 [← List.flatten_splitBy joins text]
  generalize text.splitBy joins = split at words apart
  induction split with
  | nil => exact .nil [] (by simp)
  | cons word split ih =>
    obtain ⟨here,later⟩ := List.forall_mem_cons.mp words
    have rest := ih later apart.tail
    rcases here with ⟨c,rfl,blank,nothing⟩ | ⟨kind,reads⟩
    · rw [List.filterMap_cons_none nothing,List.flatten_cons]
      exact rest.indent (List.forall_mem_singleton.mpr blank)
    · rw [List.filterMap_cons_some reads,List.flatten_cons]
      exact .cons [] (by simp) (joins_flatten apart) rest

/-- A sign that is attached stands directly before its operand, since it has taken in the blanks. -/
theorem Laid.attachSign (laid : Laid tokens text) (settled : text.IsChain Sign.Settles) :
    Laid (attachSign tokens) text := by
  rcases attachSign_cases tokens with ⟨sign,first,rest,rfl,_,attaches⟩ | ⟨same,_⟩
  · rw [attaches]
    cases laid with
    | cons lead blanks _ laid =>
      cases laid with
      | @cons _ _ gap text more ends rest =>
        have signed : isSign sign.toChar = true := isSign_iff.mpr ⟨sign,rfl⟩
        have next := (List.isChain_cons.mp settled.right_of_append).1
        have noGap : gap = [] := by
          cases gap with
          | nil => rfl
          | cons c gap =>
            have visible := (next c (by simp) signed).2
            simp [more c List.mem_cons_self] at visible
        subst noGap
        have signEnds : ∀ a ∈ [sign.toChar].getLast?, ∀ b ∈ text.head?, joins a b = false := by
          rintro a ⟨⟩ b _
          exact joins_of_isSign signed b
        have signedEnds := joins_append (fun _ => signEnds) ends
        have laid : Laid (first.withSign (some sign) :: _) _ := .cons lead blanks signedEnds rest
        simpa [withSign] using laid
  · rwa [same]

theorem lexical_collapse (lexical : ∀ c ∈ text, Lexical c) : ∀ c ∈ Sign.collapse text, Lexical c :=
  fun c member => (Sign.mem_collapseFrom member).elim lexical_of_isSign (lexical c)

theorem laid_of_tokenize (read : tokenize text = .ok tokens) : Laid tokens (Sign.collapse text) := by
  obtain ⟨lexical,rfl⟩ := tokenize_eq_ok_iff.mp read
  exact (laid_scan (lexical_collapse lexical)).attachSign (Sign.isChain_collapseFrom none text)

/-- A place of a token in a text, with what stands before and after it. -/
structure Place (before : List Token) (token : Token) (after : List Token)
    (front back text : Text) : Prop where
  split : text = front ++ (token.text ++ back)
  before : Spread before front
  after : Laid after back
  starts : ∀ a ∈ front.getLast?, ∀ b ∈ token.text.head?, joins a b = false
  ends : ∀ a ∈ token.text.getLast?, ∀ b ∈ back.head?, joins a b = false

theorem Laid.place (laid : Laid (before ++ token :: after) text) :
    ∃ front back, Place before token after front back text := by
  induction before generalizing text with
  | nil =>
    cases laid with
    | @cons _ _ gap back blanks ends rest =>
      exact ⟨gap,back,rfl,.nil gap blanks,rest,joins_of_blanks blanks _,ends⟩
  | cons first before ih =>
    cases laid with
    | @cons _ _ gap rest blanks ends laid =>
      obtain ⟨front,back,rfl,spread,after,starts,stops⟩ := ih laid
      refine ⟨gap ++ (first.text ++ front),back,by simp,.cons gap blanks spread,after,?_,stops⟩
      refine joins_append (fun _ => joins_of_blanks blanks _) (joins_append ?_ starts)
      rintro rfl a last b head
      exact ends a last b (by simp [Option.mem_def.mp head])

/-- A run of characters of a class that no neighbour lengthens. -/
structure MaximalRun (inside : Char → Bool) (front run back : Text) : Prop where
  someChar : run ≠ []
  all : ∀ c ∈ run, inside c = true
  starts : ∀ c ∈ front.getLast?, inside c = false
  ends : ∀ c ∈ back.head?, inside c = false

/-- Names are made of letters and numbers of digits; the other tokens are not made of a class. -/
def Kind.alphabet : Kind → Char → Bool
  | identifier, c => c.isAlpha
  | integer, c => c.isDigit
  | operator, _ | lparen, _ | rparen, _ => false

theorem Spread.visible (spread : Spread tokens text)
    (solid : ∀ token ∈ tokens, ∀ c ∈ token.text, isBlank c = false) :
    tokens.flatMap Token.text = text.filter (!isBlank ·) := by
  induction spread with
  | nil gap blanks =>
    have nothing : gap.filter (!isBlank ·) = [] :=
      List.filter_eq_nil_iff.mpr fun c member => by simp [blanks c member]
    rw [nothing]
    rfl
  | @cons tokens token gap text blanks _ ih =>
    obtain ⟨first,others⟩ := List.forall_mem_cons.mp solid
    have nothing : gap.filter (!isBlank ·) = [] :=
      List.filter_eq_nil_iff.mpr fun c member => by simp [blanks c member]
    have whole : token.text.filter (!isBlank ·) = token.text :=
      List.filter_eq_self.mpr fun c member => by simp [first c member]
    rw [List.filter_append,List.filter_append,nothing,whole,← ih others]
    rfl

theorem Plain.alphabet (plain : Plain token) (anOperand : token.isOperand = true) :
    ∀ c ∈ token.text, token.kind.alphabet c = true := by
  cases plain with
  | identifier _ all | integer _ all => exact all
  | operator | lparen | rparen => cases anOperand

theorem alphabet_of_joins {kind : Kind} {a b : Char} (inside : kind.alphabet a = true)
    (apart : joins a b = false) : kind.alphabet b = false := by
  cases kind with
  | identifier | integer => simp_all [joins,Kind.alphabet]
  | operator | lparen | rparen => cases inside

theorem Lexed.word (lexed : Lexed tokens) (split : tokens = before ++ token :: after) :
    ∃ sign word, Plain word ∧ token = word.withSign sign ∧ (sign.isSome = true → before = []) := by
  cases lexed with
  | plain plain => exact ⟨none,token,plain token (by simp [split]),rfl,by simp⟩
  | @signed first rest sign _ plain =>
    cases before with
    | nil =>
      obtain ⟨rfl,rfl⟩ := List.cons.inj split
      exact ⟨some sign,first,plain first List.mem_cons_self,rfl,fun _ => rfl⟩
    | cons other before =>
      obtain ⟨_,rfl⟩ := List.cons.inj split
      exact ⟨none,token,plain token (by simp),rfl,by simp⟩

theorem Plain.solid_withSign (plain : Plain token) (sign : Option Sign) :
    ∀ c ∈ (token.withSign sign).text, isBlank c = false := by
  refine List.forall_mem_append.mpr ⟨?_,plain.solid⟩
  rcases sign with _ | _ | _
  · simp
  · exact List.forall_mem_singleton.mpr rfl
  · exact List.forall_mem_singleton.mpr rfl

theorem Lexed.solid (lexed : Lexed tokens) :
    ∀ token ∈ tokens, ∀ c ∈ token.text, isBlank c = false := by
  intro token member
  obtain ⟨before,after,split⟩ := List.append_of_mem member
  obtain ⟨sign,word,plain,rfl,_⟩ := lexed.word split
  exact plain.solid_withSign sign

theorem Place.maximalRun {sign : Option Sign}
    (place : Place before (token.withSign sign) after front back text) (plain : Plain token)
    (anOperand : token.isOperand = true) :
    MaximalRun token.kind.alphabet (front ++ sign.toList.map Sign.toChar) token.text back where
  someChar := plain.text_ne_nil
  all := plain.alphabet anOperand
  starts := by
    intro c last
    obtain ⟨d,rest,text,_⟩ := plain.text_eq_cons
    have inside := plain.alphabet anOperand d (by simp [text])
    cases sign with
    | none =>
      apply alphabet_of_joins inside
      rw [joins_comm]
      exact place.starts c (by simpa using last) d (by simp [text])
    | some sign =>
      obtain rfl : sign.toChar = c := by simpa using last
      have apart := joins_of_isSign (isSign_iff.mpr ⟨sign,rfl⟩) d
      exact alphabet_of_joins inside (by rwa [joins_comm])
  ends := by
    intro c head
    have last := List.getLast?_eq_some_getLast plain.text_ne_nil
    have inside := plain.alphabet anOperand _ (List.getLast_mem plain.text_ne_nil)
    apply alphabet_of_joins inside
    refine place.ends _ ?_ c head
    simp [withSign,List.getLast?_append,last]

theorem Place.separated {sign : Option Sign}
    (place : Place before (first.withSign sign) (second :: after) front back text)
    (plain : Plain first) (next : Plain second) (anOperand : first.isOperand = true)
    (same : first.kind = second.kind) :
    ∃ gap rest, back = gap ++ (second.text ++ rest) ∧ Spread after rest ∧ gap ≠ [] ∧
      ∀ c ∈ gap, isBlank c = true := by
  have nextOperand : second.isOperand = true := by simpa [isOperand,same] using anOperand
  obtain ⟨c,rest,text,_⟩ := next.text_eq_cons
  have inside := next.alphabet nextOperand c (by simp [text])
  have apart := (place.maximalRun plain anOperand).ends c
  have later := place.after
  cases later with
  | @cons _ _ gap rest blanks _ laid =>
    refine ⟨gap,rest,rfl,laid.spread,?_,blanks⟩
    rintro rfl
    have outside := apart (by simp [text])
    rw [same,inside] at outside
    cases outside

/-- How tokens are cut out of a text. -/
structure Cut (tokens : List Token) (text : Text) : Prop where
  /-- The text of each token is a word of its kind. -/
  lexed : Lexed tokens
  /-- The tokens hold the characters of the text in their order, all but the blanks. -/
  visible : tokens.flatMap Token.text = text.filter (!isBlank ·)
  /-- Each operand stands in the text, between the tokens before and after it, as a maximal run of
  letters or of digits. Only the first token has a sign, which stands directly before its run. -/
  maximal : ∀ before token after, tokens = before ++ token :: after → token.isOperand = true →
    ∃ sign run front back, token = withSign sign ⟨token.kind,run⟩ ∧ (sign.isSome = true → before = []) ∧
      text = front ++ (token.text ++ back) ∧ Spread before front ∧ Spread after back ∧
      MaximalRun token.kind.alphabet (front ++ sign.toList.map Sign.toChar) run back
  /-- Between two names, and between two numbers, there is a blank. -/
  separated : ∀ before first second after, tokens = before ++ first :: second :: after →
    first.isOperand = true → first.kind = second.kind →
    ∃ front gap back, text = front ++ (first.text ++ (gap ++ (second.text ++ back))) ∧
      Spread before front ∧ Spread after back ∧ gap ≠ [] ∧ ∀ c ∈ gap, isBlank c = true

theorem cut_of_tokenize (read : tokenize text = .ok tokens) : Cut tokens (Sign.collapse text) where
  lexed := lexed_of_tokenize read
  visible := (laid_of_tokenize read).spread.visible (lexed_of_tokenize read).solid
  maximal := by
    intro before token after split anOperand
    obtain ⟨sign,word,plain,rfl,leads⟩ := (lexed_of_tokenize read).word split
    have laid := laid_of_tokenize read
    rw [split] at laid
    obtain ⟨front,back,place⟩ := laid.place
    exact ⟨sign,word.text,front,back,rfl,leads,place.split,place.before,place.after.spread,
      place.maximalRun plain anOperand⟩
  separated := by
    intro before first second after split anOperand same
    have lexed := lexed_of_tokenize read
    have laid := laid_of_tokenize read
    rw [split] at laid
    obtain ⟨front,back,place⟩ := laid.place
    obtain ⟨sign,word,plain,rfl,_⟩ := lexed.word split
    have later : tokens = (before ++ [word.withSign sign]) ++ second :: after := by simpa using split
    obtain ⟨noSign,next,nextPlain,rfl,leads⟩ := lexed.word later
    obtain rfl : noSign = none := by simpa using leads
    obtain ⟨gap,rest,rfl,spread,someBlank,blanks⟩ :=
      place.separated plain nextPlain anOperand same
    exact ⟨front,gap,rest,place.split,place.before,spread,someBlank,blanks⟩

theorem tokenize_exact (text : Text) :
    ((∃ failure, tokenize text = .error failure ∧ failure.kind = .invalidExpression) ↔
      ∃ c ∈ text, ¬ Lexical c) ∧
    ((∀ c ∈ text, Lexical c) → ∃ tokens, tokenize text = .ok tokens ∧
      Cut tokens (Sign.collapse text)) := by
  refine ⟨⟨?_,?_⟩,?_⟩
  · rintro ⟨failure,fails,_⟩
    by_contra lexical
    rw [tokenize_of_lexical (by simpa using lexical)] at fails
    cases fails
  · intro stray
    exact ⟨_,tokenize_of_not_lexical stray,rfl⟩
  · intro lexical
    have read := tokenize_of_lexical lexical
    exact ⟨_,read,cut_of_tokenize read⟩

end Reckoner.Token
