import Mathlib.Computability.Language
import Reckoner.Proofs.Rendering.Layout
import Reckoner.Proofs.Sign.Normal
import Reckoner.Proofs.Token.Placement

/-!
# Texts of one operand

Whether a text is one operand is asked of its tokens, after the signs are collapsed. The answer is
membership in a regular language: signs with blanks around them, a word of letters or of digits,
and blanks: `Grammar.isOperand_iff_mem_operandTexts`.
-/

namespace Reckoner

open scoped Computability

variable {inside : Char → Bool} {text lead word trail : Text} {kind : Token.Kind} {operand : Token}

namespace Text

/-- The texts of one character of a class. -/
def one (inside : Char → Bool) : Language Char := {text | ∃ c, inside c = true ∧ text = [c]}

theorem mem_kstar_one : text ∈ (one inside)∗ ↔ ∀ c ∈ text, inside c = true := by
  rw [Language.mem_kstar]
  constructor
  · rintro ⟨parts,rfl,single⟩ c member
    obtain ⟨part,among,contains⟩ := List.mem_flatten.mp member
    obtain ⟨d,isInside,rfl⟩ := single part among
    obtain rfl := List.mem_singleton.mp contains
    exact isInside
  · intro all
    refine ⟨text.map ([·]),(List.flatMap_singleton' text).symm,?_⟩
    intro part among
    obtain ⟨c,member,rfl⟩ := List.mem_map.mp among
    exact ⟨c,all c member,rfl⟩

theorem mem_one_mul_kstar :
    text ∈ one inside * (one inside)∗ ↔ text ≠ [] ∧ ∀ c ∈ text, inside c = true := by
  rw [Language.mem_mul]
  constructor
  · rintro ⟨_,⟨c,isInside,rfl⟩,rest,later,rfl⟩
    exact ⟨List.cons_ne_nil c rest,List.forall_mem_cons.mpr ⟨isInside,mem_kstar_one.mp later⟩⟩
  · rintro ⟨someChar,all⟩
    obtain ⟨c,rest,rfl⟩ := List.exists_cons_of_ne_nil someChar
    obtain ⟨isInside,later⟩ := List.forall_mem_cons.mp all
    exact ⟨[c],⟨c,isInside,rfl⟩,rest,mem_kstar_one.mpr later,rfl⟩

/-- Signs, with blanks before and after each. -/
def marks : Language Char := (one isBlank)∗ * (one isSign * (one isBlank)∗)∗

theorem mem_marks : text ∈ marks ↔ ∀ c ∈ text, isSign c = true ∨ isBlank c = true := by
  constructor
  · intro member
    obtain ⟨gap,blanks,runs,signed,rfl⟩ := Language.mem_mul.mp member
    obtain ⟨parts,rfl,each⟩ := Language.mem_kstar.mp signed
    refine List.forall_mem_append.mpr ⟨fun c within => .inr (mem_kstar_one.mp blanks c within),?_⟩
    intro c within
    obtain ⟨part,among,contains⟩ := List.mem_flatten.mp within
    obtain ⟨_,⟨sign,aSign,rfl⟩,after,later,rfl⟩ := Language.mem_mul.mp (each part among)
    rcases List.mem_cons.mp contains with rfl | behind
    · exact .inl aSign
    · exact .inr (mem_kstar_one.mp later c behind)
  · intro marked
    induction text with
    | nil => exact ⟨[],Language.nil_mem_kstar _,[],Language.nil_mem_kstar _,rfl⟩
    | cons c rest ih =>
      obtain ⟨here,later⟩ := List.forall_mem_cons.mp marked
      obtain ⟨gap,blanks,runs,signed,rfl⟩ := Language.mem_mul.mp (ih later)
      rcases here with aSign | blank
      · have first : c :: gap ∈ one isSign * (one isBlank)∗ := ⟨[c],⟨c,aSign,rfl⟩,gap,blanks,rfl⟩
        have joined : c :: gap ++ runs ∈ (one isSign * (one isBlank)∗)∗ :=
          Set.mem_of_mem_of_subset (Language.append_mem_mul first signed)
            (mul_kstar_le_kstar (a := one isSign * (one isBlank)∗))
        exact ⟨[],Language.nil_mem_kstar _,_,joined,rfl⟩
      · have indented : c :: gap ∈ (one isBlank)∗ :=
          mem_kstar_one.mpr (List.forall_mem_cons.mpr ⟨blank,mem_kstar_one.mp blanks⟩)
        exact ⟨_,indented,runs,signed,rfl⟩

end Text

namespace Grammar

open Text Token

/-- The texts that are one operand: signs and blanks, a word of letters or of digits, blanks. -/
def operandTexts : Language Char :=
  marks * (one Char.isAlpha * (one Char.isAlpha)∗ + one Char.isDigit * (one Char.isDigit)∗) *
    (one isBlank)∗

/-- A word of one kind with signs and blanks in front of it and blanks after it. -/
structure SignedWord (text : Text) (kind : Kind) (lead word trail : Text) : Prop where
  split : text = lead ++ (word ++ trail)
  marks : ∀ c ∈ lead, isSign c = true ∨ isBlank c = true
  someChar : word ≠ []
  all : ∀ c ∈ word, kind.alphabet c = true
  blanks : ∀ c ∈ trail, isBlank c = true

theorem SignedWord.kinds (signed : SignedWord text kind lead word trail) :
    kind = .identifier ∨ kind = .integer := by
  obtain ⟨c,member⟩ := List.exists_mem_of_ne_nil word signed.someChar
  have inside := signed.all c member
  cases kind with
  | identifier => exact .inl rfl
  | integer => exact .inr rfl
  | operator | lparen | rparen => cases inside

theorem mem_operandTexts_iff :
    text ∈ operandTexts ↔ ∃ kind lead word trail, SignedWord text kind lead word trail := by
  rw [operandTexts,Language.mem_mul]
  constructor
  · rintro ⟨_,⟨lead,marked,word,words,rfl⟩,trail,blanks,rfl⟩
    have split : lead ++ word ++ trail = lead ++ (word ++ trail) := List.append_assoc ..
    rcases words with letters | digits
    · obtain ⟨someChar,all⟩ := mem_one_mul_kstar.mp letters
      exact ⟨.identifier,lead,word,trail,split,mem_marks.mp marked,someChar,all,mem_kstar_one.mp blanks⟩
    · obtain ⟨someChar,all⟩ := mem_one_mul_kstar.mp digits
      exact ⟨.integer,lead,word,trail,split,mem_marks.mp marked,someChar,all,mem_kstar_one.mp blanks⟩
  · rintro ⟨kind,lead,word,trail,signed⟩
    have words : word ∈ one Char.isAlpha * (one Char.isAlpha)∗ + one Char.isDigit * (one Char.isDigit)∗ := by
      rcases signed.kinds with rfl | rfl
      · exact .inl (mem_one_mul_kstar.mpr ⟨signed.someChar,signed.all⟩)
      · exact .inr (mem_one_mul_kstar.mpr ⟨signed.someChar,signed.all⟩)
    refine ⟨lead ++ word,Language.append_mem_mul (mem_marks.mpr signed.marks) words,trail,
      mem_kstar_one.mpr signed.blanks,?_⟩
    rw [signed.split,List.append_assoc]

theorem operand?_eq_some_iff :
    operand? text = some operand ↔ tokenize text = .ok [operand] ∧ operand.isOperand = true := by
  rw [operand?]
  split
  next token read =>
    split
    next anOperand =>
      constructor
      · intro same
        cases same
        exact ⟨read,anOperand⟩
      · rintro ⟨same,_⟩
        rw [read] at same
        cases same
        rfl
    next noOperand =>
      simp only [reduceCtorEq,false_iff,not_and]
      intro same
      rw [read] at same
      cases same
      exact noOperand
  next other =>
    simp only [reduceCtorEq,false_iff,not_and]
    intro read
    exact absurd read (other operand)

theorem SignedWord.plain (signed : SignedWord text kind lead word trail) : Plain ⟨kind,word⟩ := by
  rcases signed.kinds with rfl | rfl
  · exact .identifier signed.someChar signed.all
  · exact .integer signed.someChar signed.all

theorem SignedWord.isOperand (signed : SignedWord text kind lead word trail) :
    Token.isOperand ⟨kind,word⟩ = true :=
  Token.isOperand_iff.mpr signed.kinds

theorem SignedWord.tokenize (signed : SignedWord text kind lead word trail) :
    tokenize text = .ok [withSign (Sign.ofRun? lead) ⟨kind,word⟩] := by
  have plain : ∀ token ∈ [⟨kind,word⟩], Plain token := List.forall_mem_singleton.mpr signed.plain
  have spread : Spread [⟨kind,word⟩] (word ++ trail) := .cons [] (by simp) (.nil trail signed.blanks)
  have walks : alternates .operand [⟨kind,word⟩] = true := by
    rcases signed.kinds with rfl | rfl <;> rfl
  rw [signed.split]
  by_cases someSign : ∃ c ∈ lead, isSign c = true
  · have run : Sign.ofRun? lead = some (Sign.parity lead) := if_pos (List.any_eq_true.mpr someSign)
    rw [run]
    exact spread.tokenize_run plain walks signed.isOperand signed.marks someSign
  · have gap : ∀ c ∈ lead, isBlank c = true := by
      intro c member
      exact (signed.marks c member).resolve_left fun sign => someSign ⟨c,member,sign⟩
    have noRun : Sign.ofRun? lead = none := if_neg (by simpa using someSign)
    rw [noRun]
    exact (spread.indent gap).tokenize plain walks

/-- Only such words are read as one operand: what is written without a sign stood there before, and
the sign of the operand stands for a run. -/
theorem exists_signedWord (read : Token.tokenize text = .ok [operand])
    (anOperand : operand.isOperand = true) :
    ∃ kind lead word trail, SignedWord text kind lead word trail := by
  obtain ⟨sign,plain,isPlain,plainOperand,rfl⟩ :=
    (lexed_of_tokenize read).operand List.mem_cons_self anOperand
  have laid := laid_of_tokenize read
  generalize collapses : Sign.collapse text = collapsed at laid
  cases laid with
  | @cons _ _ gap trail blanks _ rest =>
    cases rest with
    | nil _ after =>
      have unsigned : ∀ c ∈ plain.text ++ trail, isSign c = false := List.forall_mem_append.mpr
        ⟨isPlain.unsigned plainOperand,fun c member => Sign.isSign_of_isBlank (after c member)⟩
      have unsignedGap : ∀ c ∈ gap, isSign c = false :=
        fun c member => Sign.isSign_of_isBlank (blanks c member)
      obtain ⟨later,rfl,inner⟩ := Sign.exists_of_collapse_append unsignedGap collapses
      have gapMarks : ∀ c ∈ gap, isSign c = true ∨ isBlank c = true :=
        fun c member => .inr (blanks c member)
      have all := isPlain.alphabet plainOperand
      cases sign with
      | none =>
        obtain rfl := Sign.eq_of_collapse unsigned inner
        exact ⟨plain.kind,gap,plain.text,trail,rfl,gapMarks,isPlain.text_ne_nil,all,after⟩
      | some sign =>
        obtain ⟨run,later,rfl,marks,afterRun⟩ := Sign.exists_run_of_collapse inner
        obtain rfl := Sign.eq_of_collapse unsigned afterRun
        exact ⟨plain.kind,gap ++ run,plain.text,trail,by simp,
          List.forall_mem_append.mpr ⟨gapMarks,marks⟩,isPlain.text_ne_nil,all,after⟩

theorem isOperand_iff_mem_operandTexts : isOperand text = true ↔ text ∈ operandTexts := by
  rw [mem_operandTexts_iff,isOperand,Option.isSome_iff_exists]
  constructor
  · rintro ⟨operand,single⟩
    obtain ⟨read,anOperand⟩ := operand?_eq_some_iff.mp single
    exact exists_signedWord read anOperand
  · rintro ⟨kind,lead,word,trail,signed⟩
    exact ⟨_,operand?_eq_some_iff.mpr ⟨signed.tokenize,signed.isOperand⟩⟩

end Grammar
end Reckoner
