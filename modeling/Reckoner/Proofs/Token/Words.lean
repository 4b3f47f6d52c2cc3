import Mathlib.Data.List.SplitBy
import Reckoner.Operator
import Reckoner.Token.Scan

/-!
# Words

The words of a text whose signs are collapsed. A token is a word of letters, a word of digits or
a single character; a text may be cut between any two characters that do not join.
-/

namespace Reckoner

theorem isAlpha_bounds {c : Char} (letter : c.isAlpha = true) :
    (65 ≤ c.toNat ∧ c.toNat ≤ 90) ∨ (97 ≤ c.toNat ∧ c.toNat ≤ 122) := by
  rcases Bool.or_eq_true_iff.mp letter with upper | lower
  · exact .inl (of_decide_eq_true upper)
  · exact .inr ((Bool.and_eq_true_iff.mp lower).imp of_decide_eq_true of_decide_eq_true)

theorem isDigit_bounds {c : Char} (digit : c.isDigit = true) : 48 ≤ c.toNat ∧ c.toNat ≤ 57 := by
  simp only [Char.isDigit,Bool.and_eq_true,decide_eq_true_eq] at digit
  exact digit

theorem isBlank_bounds {c : Char} (blank : isBlank c = true) : c.toNat ≤ 32 ∨ 133 ≤ c.toNat := by
  simp [isBlank,blankRanges] at blank
  omega

theorem isAlpha_of_isBlank {c : Char} (blank : isBlank c = true) : c.isAlpha = false := by
  by_contra letter
  have := isAlpha_bounds (by simpa using letter)
  have := isBlank_bounds blank
  omega

theorem isDigit_of_isBlank {c : Char} (blank : isBlank c = true) : c.isDigit = false := by
  by_contra digit
  have := isDigit_bounds (by simpa using digit)
  have := isBlank_bounds blank
  omega

theorem isDigit_of_isAlpha {c : Char} (letter : c.isAlpha = true) : c.isDigit = false := by
  by_contra digit
  have := isDigit_bounds (by simpa using digit)
  have := isAlpha_bounds letter
  omega

theorem isSign_iff {c : Char} : isSign c = true ↔ ∃ sign : Sign, c = sign.toChar := by
  constructor
  · intro signed
    obtain ⟨sign,aSign⟩ := Option.isSome_iff_exists.mp signed
    exact ⟨sign,Sign.eq_toChar_of_ofChar? aSign⟩
  · rintro ⟨sign,rfl⟩
    simp [isSign]

namespace Token

theorem isOperatorChar_iff {c : Char} : isOperatorChar c = true ↔ ∃ op : Operator, op.text = [c] := by
  constructor
  · intro operator
    have one : c = '+' ∨ c = '-' ∨ c = '*' ∨ c = '/' ∨ c = '^' := by
      simpa [isOperatorChar] using operator
    rcases one with rfl | rfl | rfl | rfl | rfl
    exacts [⟨.add,rfl⟩,⟨.sub,rfl⟩,⟨.mul,rfl⟩,⟨.div,rfl⟩,⟨.pow,rfl⟩]
  · rintro ⟨op,spells⟩
    cases op <;> cases spells <;> rfl

theorem kindOf?_of_isBlank {c : Char} (blank : isBlank c = true) : kindOf? c = none := by
  have left : c ≠ '(' := by rintro rfl; cases blank
  have right : c ≠ ')' := by rintro rfl; cases blank
  have other : isOperatorChar c = false := by
    by_contra operator
    obtain ⟨op,spells⟩ := isOperatorChar_iff.mp (by simpa using operator)
    cases op <;> cases spells <;> cases blank
  simp [kindOf?,isAlpha_of_isBlank blank,isDigit_of_isBlank blank,left,right,other]

/-- A token as the words of a text give it, without a sign of its own. -/
inductive Plain : Token → Prop
  | identifier (some : name ≠ []) (letters : ∀ c ∈ name, c.isAlpha = true) :
      Plain ⟨.identifier,name⟩
  | integer (some : digits ≠ []) (decimal : ∀ c ∈ digits, c.isDigit = true) :
      Plain ⟨.integer,digits⟩
  | operator (op : Operator) : Plain ⟨.operator,op.text⟩
  | lparen : Plain ⟨.lparen,['(']⟩
  | rparen : Plain ⟨.rparen,[')']⟩

theorem joins_of_isBlank {c : Char} (blank : isBlank c = true) (other : Char) :
    joins c other = false := by
  simp [joins,isAlpha_of_isBlank blank,isDigit_of_isBlank blank]

theorem joins_of_isSign {c : Char} (signed : isSign c = true) (other : Char) :
    joins c other = false := by
  obtain ⟨sign,rfl⟩ := isSign_iff.mp signed
  cases sign <;> rfl

theorem joins_comm (a b : Char) : joins a b = joins b a := by
  simp only [joins,Bool.and_comm]

theorem joins_of_blanks {gap : Text} (blanks : ∀ c ∈ gap, isBlank c = true) (back : Text) :
    ∀ a ∈ gap.getLast?, ∀ b ∈ back.head?, joins a b = false :=
  fun a last b _ => joins_of_isBlank (blanks a (List.mem_of_mem_getLast? last)) b

theorem joins_append {front middle back : Text}
    (outer : middle = [] → ∀ a ∈ front.getLast?, ∀ b ∈ back.head?, joins a b = false)
    (inner : ∀ a ∈ middle.getLast?, ∀ b ∈ back.head?, joins a b = false) :
    ∀ a ∈ (front ++ middle).getLast?, ∀ b ∈ back.head?, joins a b = false := by
  intro a last b head
  simp only [List.getLast?_append,Option.mem_def,Option.or_eq_some_iff] at last
  rcases last with last | ⟨nothing,last⟩
  · exact inner a last b head
  · exact outer (List.getLast?_eq_none_iff.mp nothing) a last b head

@[simp] theorem scan_nil : scan [] = [] := rfl

theorem joins_flatten {word : Text} {words : List Text}
    (apart : (word :: words).IsChain fun a b => ∃ ha hb, joins (a.getLast ha) (b.head hb) = false) :
    ∀ a ∈ word.getLast?, ∀ b ∈ words.flatten.head?, joins a b = false := by
  cases words with
  | nil => simp
  | cons next words =>
    obtain ⟨someChar,someNext,parted⟩ := (List.isChain_cons_cons.mp apart).1
    intro a last b head
    rw [List.getLast?_eq_some_getLast someChar] at last
    rw [List.flatten_cons,List.head?_append_of_ne_nil _ someNext,
      List.head?_eq_some_head someNext] at head
    cases last
    cases head
    exact parted

theorem scan_append {front back : Text}
    (apart : ∀ a ∈ front.getLast?, ∀ b ∈ back.head?, joins a b = false) :
    scan (front ++ back) = scan front ++ scan back := by
  simp only [scan,List.splitBy_append apart,List.filterMap_append]

theorem scan_cons {c : Char} (alone : ∀ other, joins c other = false) (text : Text) :
    scan (c :: text) = scan [c] ++ scan text := by
  rw [← List.singleton_append]
  apply scan_append
  rintro a ⟨⟩ b _
  exact alone b

theorem scan_blank {c : Char} (blank : isBlank c = true) (text : Text) :
    scan (c :: text) = scan text := by
  have nothing : scan [c] = [] := by
    simp [scan,List.splitBy,List.splitBy.loop,ofWord?,kindOf?_of_isBlank blank]
  rw [scan_cons (joins_of_isBlank blank),nothing,List.nil_append]

theorem scan_blanks {gap : Text} (blanks : ∀ c ∈ gap, isBlank c = true) (text : Text) :
    scan (gap ++ text) = scan text := by
  induction gap with
  | nil => rfl
  | cons c gap ih =>
    rw [List.cons_append,scan_blank (blanks c List.mem_cons_self)]
    exact ih fun d member => blanks d (List.mem_cons_of_mem c member)

theorem scan_append_blanks {front gap back : Text} (blanks : ∀ c ∈ gap, isBlank c = true)
    (apart : gap = [] → ∀ a ∈ front.getLast?, ∀ b ∈ back.head?, joins a b = false) :
    scan (front ++ (gap ++ back)) = scan front ++ scan back := by
  have cut : ∀ a ∈ front.getLast?, ∀ b ∈ (gap ++ back).head?, joins a b = false := by
    intro a last b head
    cases gap with
    | nil => exact apart rfl a last b head
    | cons c gap =>
      obtain rfl : c = b := by simpa using head
      rw [joins_comm,joins_of_isBlank (blanks c List.mem_cons_self)]
  rw [scan_append cut,scan_blanks blanks]

theorem scan_word {c : Char} {rest : Text} {kind : Kind} (kinds : kindOf? c = some kind)
    (chain : (c :: rest).IsChain fun a b => joins a b = true) :
    scan (c :: rest) = [⟨kind,c :: rest⟩] := by
  simp [scan,List.splitBy_of_isChain (by simp) chain,ofWord?,kinds]

theorem kindOf?_of_isAlpha {c : Char} (letter : c.isAlpha = true) :
    kindOf? c = some .identifier := by
  simp [kindOf?,letter]

theorem kindOf?_of_isDigit {c : Char} (digit : c.isDigit = true) : kindOf? c = some .integer := by
  have other : c.isAlpha = false := by
    by_contra letter
    simp [isDigit_of_isAlpha (by simpa using letter)] at digit
  simp [kindOf?,other,digit]

theorem Plain.scan (plain : Plain token) : Token.scan token.text = [token] := by
  cases plain with
  | @identifier name some letters =>
    obtain ⟨c,rest,rfl⟩ := List.exists_cons_of_ne_nil some
    apply scan_word (kindOf?_of_isAlpha (letters c List.mem_cons_self))
    exact (List.pairwise_of_forall_mem_list fun a one b two => by
      simp [joins,letters a one,letters b two]).isChain
  | @integer digits some decimal =>
    obtain ⟨c,rest,rfl⟩ := List.exists_cons_of_ne_nil some
    apply scan_word (kindOf?_of_isDigit (decimal c List.mem_cons_self))
    exact (List.pairwise_of_forall_mem_list fun a one b two => by
      simp [joins,decimal a one,decimal b two]).isChain
  | operator op => cases op <;> rfl
  | lparen | rparen => rfl

theorem isAlpha_of_chain {c : Char} {rest : Text} (letter : c.isAlpha = true)
    (chain : (c :: rest).IsChain fun a b => joins a b = true) :
    ∀ d ∈ c :: rest, d.isAlpha = true := by
  induction rest generalizing c with
  | nil => simpa using letter
  | cons d rest ih =>
    obtain ⟨joined,chain⟩ := List.isChain_cons_cons.mp chain
    have next : d.isAlpha = true := by
      simpa [joins,letter,isDigit_of_isAlpha letter] using joined
    intro e member
    rcases List.mem_cons.mp member with rfl | member
    · exact letter
    · exact ih next chain e member

theorem isDigit_of_chain {c : Char} {rest : Text} (digit : c.isDigit = true)
    (chain : (c :: rest).IsChain fun a b => joins a b = true) :
    ∀ d ∈ c :: rest, d.isDigit = true := by
  induction rest generalizing c with
  | nil => simpa using digit
  | cons d rest ih =>
    obtain ⟨joined,chain⟩ := List.isChain_cons_cons.mp chain
    have next : d.isDigit = true := by
      rcases Bool.or_eq_true _ _ ▸ joined with letters | digits
      · have letter : c.isAlpha = true := (Bool.and_eq_true _ _ ▸ letters).1
        simp [isDigit_of_isAlpha letter] at digit
      · exact (Bool.and_eq_true _ _ ▸ digits).2
    intro e member
    rcases List.mem_cons.mp member with rfl | member
    · exact digit
    · exact ih next chain e member

theorem eq_nil_of_chain {c : Char} {rest : Text} (letter : c.isAlpha = false)
    (digit : c.isDigit = false) (chain : (c :: rest).IsChain fun a b => joins a b = true) :
    rest = [] := by
  cases rest with
  | nil => rfl
  | cons d rest =>
    have joined := (List.isChain_cons_cons.mp chain).1
    simp [joins,letter,digit] at joined

theorem plain_of_kindOf? {c : Char} {kind : Kind} (letter : c.isAlpha = false)
    (digit : c.isDigit = false) (kinds : kindOf? c = some kind) : Plain ⟨kind,[c]⟩ := by
  simp only [kindOf?,letter,digit,Bool.false_eq_true,if_false] at kinds
  split at kinds
  next left => cases kinds; subst left; exact .lparen
  next =>
    split at kinds
    next right => cases kinds; subst right; exact .rparen
    next =>
      split at kinds
      next operator =>
        cases kinds
        obtain ⟨op,spells⟩ := isOperatorChar_iff.mp operator
        exact spells ▸ .operator op
      next => cases kinds

theorem plain_of_mem_scan {text : Text} (member : token ∈ Token.scan text) : Plain token := by
  obtain ⟨word,words,reads⟩ := List.mem_filterMap.mp member
  have chain := List.isChain_of_mem_splitBy words
  obtain ⟨c,rest,rfl⟩ := List.exists_cons_of_ne_nil (List.ne_nil_of_mem_splitBy words)
  obtain ⟨kind,kinds,rfl⟩ : ∃ kind, kindOf? c = some kind ∧ ⟨kind,c :: rest⟩ = token := by
    simpa [ofWord?,Option.bind_eq_some_iff] using reads
  cases letter : c.isAlpha with
  | true =>
    obtain rfl : Kind.identifier = kind := by simpa [kindOf?_of_isAlpha letter] using kinds
    exact .identifier (by simp) (isAlpha_of_chain letter chain)
  | false =>
    cases digit : c.isDigit with
    | true =>
      obtain rfl : Kind.integer = kind := by simpa [kindOf?_of_isDigit digit] using kinds
      exact .integer (by simp) (isDigit_of_chain digit chain)
    | false =>
      obtain rfl := eq_nil_of_chain letter digit chain
      exact plain_of_kindOf? letter digit kinds

end Token
end Reckoner
