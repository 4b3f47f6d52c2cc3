import Reckoner.Proofs.Token.Placement

/-!
# What texts are read as

The lists of tokens that come from texts are those that spell a text which is read as them:
`Token.tokenize_image`. Signs take in the blanks and the signs around them, so two signs never
stand side by side and none stands alone before the first operand.
-/

namespace Reckoner.Token

variable {text : Text} {tokens rest : List Token} {token first second : Token}

def Parted (a b : Token) : Prop := ¬ (a.isSignOperator = true ∧ b.isSignOperator = true)

theorem isSignOperator_of_isOperand (anOperand : token.isOperand = true) :
    token.isSignOperator = false := by
  by_contra aSign
  obtain ⟨sign,rfl⟩ := isSignOperator_iff.mp (by simpa using aSign)
  cases anOperand

theorem Spread.parted (spread : Spread tokens text) (settled : text.IsChain Sign.Settles) :
    tokens.IsChain Parted := by
  induction spread with
  | nil => exact .nil
  | @cons tokens token gap text blanks spread ih =>
    have settled := settled.right_of_append
    refine List.isChain_cons.mpr ⟨?_,ih settled.right_of_append⟩
    rintro next head ⟨aSign,nextSign⟩
    obtain ⟨sign,rfl⟩ := isSignOperator_iff.mp aSign
    obtain ⟨other,rfl⟩ := isSignOperator_iff.mp nextSign
    have signed (sign : Sign) : isSign sign.toChar = true := isSign_iff.mpr ⟨sign,rfl⟩
    have visible := (List.isChain_cons.mp settled).1
    cases spread with
    | nil => cases head
    | @cons tokens token gap text blanks spread =>
      obtain rfl : token = _ := by simpa using head
      cases gap with
      | nil =>
        have := (visible other.toChar (by simp) (signed sign)).1
        simp [signed] at this
      | cons c gap =>
        have := (visible c (by simp) (signed sign)).2
        simp [blanks c List.mem_cons_self] at this

/-- The lists of tokens that texts are read as: plain tokens, where the first may carry a sign if
it is an operand. No two signs stand side by side, and none stands before the first operand. -/
structure Readable (tokens : List Token) : Prop where
  lexed : Lexed tokens
  parted : tokens.IsChain Parted
  attached : ∀ first second rest, tokens = first :: second :: rest →
    first.isSignOperator = true → second.isOperand = false

theorem readable_attachSign (plain : ∀ token ∈ tokens, Plain token) (parted : tokens.IsChain Parted) :
    Readable (attachSign tokens) := by
  have lexed := lexed_attachSign plain
  rcases attachSign_cases tokens with ⟨sign,first,rest,rfl,anOperand,attaches⟩ | ⟨same,attached⟩
  · rw [attaches] at lexed ⊢
    have noSign : (first.withSign (some sign)).isSignOperator = false :=
      isSignOperator_of_isOperand anOperand
    refine ⟨lexed,List.isChain_cons.mpr ⟨?_,parted.tail.tail⟩,?_⟩
    · simp [Parted,noSign]
    · intro other second later same aSign
      rw [← (List.cons.inj same).1,noSign] at aSign
      cases aSign
  · rw [same] at lexed ⊢
    exact ⟨lexed,parted,attached⟩

theorem readable_of_tokenize (read : tokenize text = .ok tokens) : Readable tokens := by
  obtain ⟨lexical,rfl⟩ := tokenize_eq_ok_iff.mp read
  have spread := (laid_scan (lexical_collapse lexical)).spread
  exact readable_attachSign (fun _ => plain_of_mem_scan)
    (spread.parted (Sign.isChain_collapseFrom none text))

theorem spell_cons (first : Token) (rest : List Token) :
    ∃ gap, (∀ c ∈ gap, isBlank c = true) ∧ (gap = [] → rest = []) ∧
      spell (first :: rest) = first.text ++ (gap ++ spell rest) := by
  cases rest with
  | nil => exact ⟨[],by simp,fun _ => rfl,by simp [spell,Text.spaced]⟩
  | cons second rest =>
    exact ⟨[' '],List.forall_mem_singleton.mpr rfl,by simp,by simp [spell,Text.spaced]⟩

theorem spell_withSign (sign : Sign) (first : Token) (rest : List Token) :
    spell (first.withSign (some sign) :: rest) = sign.toChar :: spell (first :: rest) := by
  cases rest <;> simp [spell,Text.spaced,withSign]

theorem spread_spell (tokens : List Token) : Spread tokens (spell tokens) := by
  induction tokens with
  | nil => exact .nil [] (by simp)
  | cons first rest ih =>
    obtain ⟨gap,blanks,_,spells⟩ := spell_cons first rest
    rw [spells]
    exact .cons [] (by simp) (ih.indent blanks)

theorem head?_spell (plain : Plain first) (noSign : first.isSignOperator = false)
    (rest : List Token) :
    ∀ c ∈ (spell (first :: rest)).head?, isSign c = false ∧ isBlank c = false := by
  intro c head
  obtain ⟨gap,_,_,spells⟩ := spell_cons first rest
  obtain ⟨d,later,text,visible⟩ := plain.text_eq_cons
  rw [spells,text] at head
  obtain rfl : d = c := by simpa using head
  refine ⟨?_,visible⟩
  rcases plain.sign_or_unsigned with ⟨sign,rfl⟩ | unsigned
  · simp [isSignOperator_iff.mpr ⟨sign,rfl⟩] at noSign
  · exact unsigned d (by simp [text])

theorem scan_sign (sign : Sign) (text : Text) :
    scan (sign.toChar :: text) = ⟨.operator,[sign.toChar]⟩ :: scan text := by
  rw [scan_cons (joins_of_isSign (isSign_iff.mpr ⟨sign,rfl⟩)),(plain_sign sign).scan,
    List.singleton_append]

theorem scan_collapse_spell (plain : ∀ token ∈ tokens, Plain token) (parted : tokens.IsChain Parted) :
    scan (Sign.collapse (spell tokens)) = tokens := by
  induction tokens with
  | nil => rfl
  | cons first rest ih =>
    obtain ⟨firstPlain,restPlain⟩ := List.forall_mem_cons.mp plain
    obtain ⟨apart,restParted⟩ := List.isChain_cons.mp parted
    have later := ih restPlain restParted
    obtain ⟨gap,blanks,last,spells⟩ := spell_cons first rest
    rw [spells,Sign.collapse]
    rcases firstPlain.sign_or_unsigned with ⟨sign,rfl⟩ | unsigned
    · have visible : ∀ c ∈ (spell rest).head?, isSign c = false ∧ isBlank c = false := by
        cases rest with
        | nil => simp [spell,Text.spaced]
        | cons second rest =>
          apply head?_spell (restPlain second List.mem_cons_self)
          have noSign := apart second rfl
          simpa [Parted,isSignOperator_iff.mpr ⟨sign,rfl⟩] using noSign
      rw [List.singleton_append,Sign.collapseFrom_none_sign,Sign.collapseFrom_blanks blanks,
        Sign.collapseFrom_some_visible sign visible,scan_sign,later]
    · have gapUnsigned : ∀ c ∈ gap, isSign c = false :=
        fun c member => Sign.isSign_of_isBlank (blanks c member)
      have apart : gap = [] → ∀ a ∈ first.text.getLast?, ∀ b ∈ (Sign.collapse (spell rest)).head?,
          joins a b = false := by
        intro noGap a _ b head
        rw [last noGap] at head
        cases head
      rw [Sign.collapseFrom_append unsigned,Sign.collapseFrom_append gapUnsigned,← Sign.collapse,
        scan_append_blanks blanks apart,firstPlain.scan,later,List.singleton_append]

theorem Readable.tokenize_spell (readable : Readable tokens) : tokenize (spell tokens) = .ok tokens := by
  obtain ⟨lexed,parted,attached⟩ := readable
  cases lexed with
  | plain plain =>
    rw [tokenize_of_lexical ((spread_spell tokens).lexical plain),scan_collapse_spell plain parted,
      attachSign_of_attached attached]
  | @signed first rest sign anOperand plain =>
    have noSign := isSignOperator_of_isOperand anOperand
    have parted : (first :: rest).IsChain Parted :=
      List.isChain_cons.mpr ⟨by simp [Parted,noSign],parted.tail⟩
    have visible := head?_spell (plain first List.mem_cons_self) noSign rest
    have spelled := (spread_spell (first :: rest)).lexical plain
    have lexical : ∀ c ∈ sign.toChar :: spell (first :: rest), Lexical c :=
      List.forall_mem_cons.mpr ⟨lexical_of_isSign (isSign_iff.mpr ⟨sign,rfl⟩),spelled⟩
    rw [spell_withSign,tokenize_of_lexical lexical,Sign.collapse,Sign.collapseFrom_none_sign,
      Sign.collapseFrom_some_visible sign visible,scan_sign,scan_collapse_spell plain parted,
      attachSign_sign sign anOperand]

theorem Lexed.tokenize_text (lexed : Lexed tokens) (member : token ∈ tokens) :
    tokenize token.text = .ok [token] := by
  have alone : Lexed [token] := by
    cases lexed with
    | plain plain => exact .plain (List.forall_mem_singleton.mpr (plain token member))
    | @signed first rest sign anOperand plain =>
      rcases List.mem_cons.mp member with rfl | member
      · exact .signed sign anOperand (List.forall_mem_singleton.mpr (plain first List.mem_cons_self))
      · have later := plain token (List.mem_cons_of_mem _ member)
        exact .plain (List.forall_mem_singleton.mpr later)
  have readable : Readable [token] := ⟨alone,.singleton _,by simp⟩
  simpa [spell,Text.spaced] using readable.tokenize_spell

theorem Signed.tokenize (signed : Signed token) : Token.tokenize token.text = .ok [token] := by
  obtain ⟨sign,plain,isPlain,anOperand,rfl⟩ := signed
  have only : ∀ other ∈ [plain], Plain other := List.forall_mem_singleton.mpr isPlain
  have lexed : Lexed [plain.withSign sign] := by
    cases sign with
    | none => exact .plain only
    | some sign => exact .signed sign anOperand only
  exact lexed.tokenize_text List.mem_cons_self

theorem tokenize_image (tokens : List Token) :
    ((∃ text, tokenize text = .ok tokens) ↔ Readable tokens) ∧
      (Readable tokens ↔ tokenize (spell tokens) = .ok tokens) := by
  refine ⟨⟨?_,fun readable => ⟨_,readable.tokenize_spell⟩⟩,⟨Readable.tokenize_spell,readable_of_tokenize⟩⟩
  rintro ⟨text,read⟩
  exact readable_of_tokenize read

end Reckoner.Token
