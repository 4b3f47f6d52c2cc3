import Reckoner.Proofs.Grammar.Operand
import Reckoner.Proofs.Numeral.Decimal
import Reckoner.Settings

/-!
# Spelled numbers

A number is spelled with digits of any scripts and single underscores between them, a sign before
the digits or none, and padding around the whole. The spellings are a regular language, and a text
is read if and only if it is one of them and the limit admits its digits:
`Numeral.read?_eq_some_iff`. The bound on the size of results is read so, and where no positive
number is read it is the default: `Settings.resultBits_ofEnvironment`.
-/

namespace Reckoner

open scoped Computability

variable {c : Char} {text gap run rest trail : Text} {sign : Option Sign} {limit : DigitLimit}
  {digits : List Nat} {n : Int}

namespace Numeral

open Text

/-- The decimal digits of all scripts. -/
def isDecimal (c : Char) : Bool := (decimalDigit? c).isSome

/-- Digits with single underscores between them. -/
def runTexts : Language Char := one isDecimal * ((1 + one (· == '_')) * one isDecimal)∗

/-- The texts that spell a number: digits, a sign before them or none, and padding around. -/
def numeralTexts : Language Char :=
  (one isPadding)∗ * ((1 + one isSign) * runTexts) * (one isPadding)∗

/-- The values of the digits in a text. -/
def values (text : Text) : List Nat := text.filterMap decimalDigit?

/-- The number that a text spells, its last digit counting ones. -/
def denoted (text : Text) : Int :=
  (if '-' ∈ text then -1 else 1) * (Nat.ofDigits 10 (values text).reverse : Nat)

theorem decimalDigit?_eq_none (other : isDecimal c = false) : decimalDigit? c = none := by
  simpa [isDecimal] using other

theorem isPadding_of_isDecimal (decimal : isDecimal c = true) : isPadding c = false := by
  by_contra padding
  have apart : ∀ origin ∈ decimalZeros, ∀ range ∈ blankRanges,
      range.2 < origin ∨ origin + 10 ≤ range.1 := by decide
  obtain ⟨value,digit⟩ := Option.isSome_iff_exists.mp decimal
  obtain ⟨origin,found,_⟩ := Option.map_eq_some_iff.mp digit
  have inside := List.find?_some found
  obtain ⟨range,listed,within⟩ := List.any_eq_true.mp (isBlank_of_isPadding (by simpa using padding))
  have := apart origin (List.mem_of_find?_eq_some found) range listed
  simp only [Bool.and_eq_true,decide_eq_true_eq] at inside within
  omega

theorem isDecimal_of_isPadding (padding : isPadding c = true) : isDecimal c = false := by
  by_contra decimal
  have unpadded := isPadding_of_isDecimal (by simpa using decimal)
  simp [padding] at unpadded

theorem isDecimal_sign (sign : Sign) : isDecimal sign.toChar = false := by
  cases sign <;> decide

theorem isPadding_sign (sign : Sign) : isPadding sign.toChar = false := by
  cases sign <;> decide

theorem isSign_of_isDecimal (decimal : isDecimal c = true) : isSign c = false := by
  by_contra signed
  obtain ⟨sign,rfl⟩ := isSign_iff.mp (by simpa using signed)
  simp [isDecimal_sign] at decimal

theorem values_append (front back : Text) : values (front ++ back) = values front ++ values back :=
  List.filterMap_append ..

theorem values_eq_nil (others : ∀ c ∈ text, isDecimal c = false) : values text = [] :=
  List.filterMap_eq_nil_iff.mpr fun c member => decimalDigit?_eq_none (others c member)

theorem values_padding (padding : ∀ c ∈ gap, isPadding c = true) : values gap = [] :=
  values_eq_nil fun c member => isDecimal_of_isPadding (padding c member)

theorem runTexts_eq : runTexts = one isDecimal * (1 + (1 + one (· == '_')) * runTexts) := by
  rw [runTexts,← mul_assoc (1 + one (· == '_')),Language.one_add_self_mul_kstar_eq_kstar]

theorem nil_notMem_runTexts : [] ∉ runTexts := by
  intro member
  obtain ⟨_,⟨c,_,rfl⟩,rest,_,same⟩ := Language.mem_mul.mp member
  cases same

theorem mem_runTexts_cons : c :: rest ∈ runTexts ↔
    isDecimal c = true ∧ (rest = [] ∨ rest ∈ runTexts ∨ ∃ run ∈ runTexts, rest = '_' :: run) := by
  constructor
  · intro member
    rw [runTexts_eq] at member
    obtain ⟨_,⟨d,decimal,rfl⟩,later,tail,same⟩ := Language.mem_mul.mp member
    cases same
    refine ⟨decimal,?_⟩
    rcases tail with none | ⟨_,none | ⟨u,underscore,rfl⟩,run,isRun,rfl⟩
    · exact .inl none
    · cases none
      exact .inr (.inl isRun)
    · obtain rfl : u = '_' := by simpa using underscore
      exact .inr (.inr ⟨run,isRun,rfl⟩)
  · rintro ⟨decimal,tail⟩
    rw [runTexts_eq]
    refine ⟨[c],⟨c,decimal,rfl⟩,rest,?_,rfl⟩
    rcases tail with rfl | isRun | ⟨run,isRun,rfl⟩
    · exact .inl rfl
    · exact .inr ⟨[],.inl rfl,rest,isRun,rfl⟩
    · exact .inr ⟨['_'],.inr ⟨'_',rfl,rfl⟩,run,isRun,rfl⟩

theorem underscore_notMem_runTexts (rest : Text) : '_' :: rest ∉ runTexts := by
  intro member
  cases (mem_runTexts_cons.mp member).1

theorem mem_runTexts_single : [c] ∈ runTexts ↔ isDecimal c = true := by
  simp [mem_runTexts_cons]

theorem mem_runTexts_parted : c :: '_' :: rest ∈ runTexts ↔ isDecimal c = true ∧ rest ∈ runTexts := by
  rw [mem_runTexts_cons]
  simp [underscore_notMem_runTexts]

theorem mem_runTexts_next (more : rest ≠ []) (plain : ∀ run, rest ≠ '_' :: run) :
    c :: rest ∈ runTexts ↔ isDecimal c = true ∧ rest ∈ runTexts := by
  simp [mem_runTexts_cons,more,plain]

theorem mem_of_mem_runTexts (isRun : run ∈ runTexts) : ∀ c ∈ run, isDecimal c = true ∨ c = '_' := by
  obtain ⟨_,⟨c,decimal,rfl⟩,_,tail,rfl⟩ := Language.mem_mul.mp isRun
  obtain ⟨parts,rfl,each⟩ := Language.mem_kstar.mp tail
  refine List.forall_mem_cons.mpr ⟨.inl decimal,fun d member => ?_⟩
  obtain ⟨part,among,contains⟩ := List.mem_flatten.mp member
  obtain ⟨mark,marked,_,⟨e,decimal,rfl⟩,rfl⟩ := Language.mem_mul.mp (each part among)
  rcases List.mem_append.mp contains with first | last
  · rcases marked with none | ⟨u,underscore,rfl⟩
    · cases none
      cases first
    · obtain rfl := List.mem_singleton.mp first
      exact .inr (by simpa using underscore)
  · obtain rfl := List.mem_singleton.mp last
    exact .inl decimal

theorem digit_cons_eq_some_iff
    (reads : ∀ {digits}, digitRun? rest = some digits ↔ rest ∈ runTexts ∧ values rest = digits) :
    (do return (← decimalDigit? c) :: (← digitRun? rest)) = some digits ↔
      (isDecimal c = true ∧ rest ∈ runTexts) ∧ values (c :: rest) = digits := by
  cases value : decimalDigit? c with
  | none => simp [isDecimal,value]
  | some d =>
    have added : values (c :: rest) = d :: values rest := List.filterMap_cons_some value
    have decimal : isDecimal c = true := by simp [isDecimal,value]
    simp [Option.bind_eq_some_iff,reads,decimal,added,and_assoc]

theorem digitRun?_eq_some_iff : digitRun? run = some digits ↔ run ∈ runTexts ∧ values run = digits := by
  induction run using digitRun?.induct generalizing digits with
  | case1 => simp [digitRun?,nil_notMem_runTexts]
  | case2 c => cases value : decimalDigit? c <;> simp [digitRun?,value,mem_runTexts_single,isDecimal,values]
  | case3 c rest ih =>
    have skipped : values (c :: '_' :: rest) = values (c :: rest) := rfl
    rw [digitRun?,mem_runTexts_parted,skipped,digit_cons_eq_some_iff ih]
  | case4 c rest more plain ih =>
    rw [digitRun?,mem_runTexts_next more plain,digit_cons_eq_some_iff ih]
    · exact more
    · exact plain

/-- A run of digits with a sign before it, or none, and padding around the two. -/
structure Spelled (text gap : Text) (sign : Option Sign) (run trail : Text) : Prop where
  split : text = gap ++ (sign.toList.map Sign.toChar ++ run ++ trail)
  before : ∀ c ∈ gap, isPadding c = true
  isRun : run ∈ runTexts
  after : ∀ c ∈ trail, isPadding c = true

theorem mem_numeralTexts_iff :
    text ∈ numeralTexts ↔ ∃ gap sign run trail, Spelled text gap sign run trail := by
  rw [numeralTexts,Language.mem_mul]
  constructor
  · rintro ⟨_,⟨gap,before,_,⟨signs,signed,run,isRun,rfl⟩,rfl⟩,trail,after,rfl⟩
    have padding := mem_kstar_one.mp before
    have later := mem_kstar_one.mp after
    rcases signed with none | ⟨c,aSign,rfl⟩
    · cases none
      exact ⟨gap,none,run,trail,by simp,padding,isRun,later⟩
    · obtain ⟨sign,rfl⟩ := isSign_iff.mp aSign
      exact ⟨gap,some sign,run,trail,by simp,padding,isRun,later⟩
  · rintro ⟨gap,sign,run,trail,split,before,isRun,after⟩
    have signed : sign.toList.map Sign.toChar ∈ 1 + one isSign := by
      cases sign with
      | none => exact .inl rfl
      | some sign => exact .inr ⟨sign.toChar,isSign_iff.mpr ⟨sign,rfl⟩,rfl⟩
    refine ⟨_,Language.append_mem_mul (mem_kstar_one.mpr before) (Language.append_mem_mul signed isRun),
      trail,mem_kstar_one.mpr after,?_⟩
    simp [split]

theorem exists_splitSign (text : Text) :
    ∃ (sign : Option Sign) (run : Text),
      text = sign.toList.map Sign.toChar ++ run ∧ splitSign text = (sign.getD .plus,run) := by
  cases text with
  | nil => exact ⟨none,[],rfl,rfl⟩
  | cons c rest =>
    cases signed : Sign.ofChar? c with
    | none => exact ⟨none,c :: rest,rfl,by simp [splitSign,signed]⟩
    | some sign =>
      obtain rfl := Sign.eq_toChar_of_ofChar? signed
      exact ⟨some sign,rest,rfl,by simp [splitSign]⟩

theorem spelled_of_read? (reads : read? limit text = some n) :
    ∃ gap sign run trail, Spelled text gap sign run trail := by
  obtain ⟨gap,trail,split,before,after⟩ := Text.trim_split isPadding text
  obtain ⟨sign,run,signed,splits⟩ := exists_splitSign (text.trim isPadding)
  rw [read?,splits] at reads
  obtain ⟨digits,runReads,_⟩ := Option.bind_eq_some_iff.mp reads
  rw [signed] at split
  exact ⟨gap,sign,run,trail,split,before,(digitRun?_eq_some_iff.mp runReads).1,after⟩

namespace Spelled

theorem run_ne_nil (spelled : Spelled text gap sign run trail) : run ≠ [] := by
  rintro rfl
  exact nil_notMem_runTexts spelled.isRun

theorem isPadding_run (spelled : Spelled text gap sign run trail) : ∀ c ∈ run, isPadding c = false := by
  intro c member
  rcases mem_of_mem_runTexts spelled.isRun c member with decimal | rfl
  · exact isPadding_of_isDecimal decimal
  · rfl

theorem splitSign_eq (spelled : Spelled text gap sign run trail) :
    splitSign (sign.toList.map Sign.toChar ++ run) = (sign.getD .plus,run) := by
  cases sign with
  | some sign => simp [splitSign]
  | none =>
    obtain ⟨c,rest,rfl⟩ := List.exists_cons_of_ne_nil spelled.run_ne_nil
    have decimal := (mem_runTexts_cons.mp spelled.isRun).1
    simp [splitSign,Sign.ofChar?_eq_none (isSign_of_isDecimal decimal)]

theorem trim_eq (spelled : Spelled text gap sign run trail) :
    text.trim isPadding = sign.toList.map Sign.toChar ++ run := by
  have inner : ∀ c ∈ sign.toList.map Sign.toChar ++ run, isPadding c = false := by
    refine List.forall_mem_append.mpr ⟨?_,spelled.isPadding_run⟩
    cases sign with
    | none => simp
    | some sign => exact List.forall_mem_singleton.mpr (isPadding_sign sign)
  rw [spelled.split,trim_append_left spelled.before,trim_append_right spelled.after,
    trim_eq_self (fun c head => inner c (List.mem_of_mem_head? head))
      fun c last => inner c (List.mem_of_mem_getLast? last)]

theorem values_eq (spelled : Spelled text gap sign run trail) : values text = values run := by
  have signs : values (sign.toList.map Sign.toChar) = [] := by
    cases sign with
    | none => rfl
    | some sign => exact values_eq_nil (List.forall_mem_singleton.mpr (isDecimal_sign sign))
  rw [spelled.split,values_append,values_append,values_append,values_padding spelled.before,
    values_padding spelled.after,signs,List.nil_append,List.nil_append,List.append_nil]

theorem minus_mem_iff (spelled : Spelled text gap sign run trail) : '-' ∈ text ↔ sign = some .minus := by
  have padding {part : Text} (all : ∀ c ∈ part, isPadding c = true) : '-' ∉ part :=
    fun member => by cases all '-' member
  have inside : '-' ∉ run := by
    intro member
    rcases mem_of_mem_runTexts spelled.isRun '-' member with decimal | underscore
    · cases decimal
    · cases underscore
  rcases sign with _ | _ | _ <;>
    simp [spelled.split,padding spelled.before,padding spelled.after,inside,Sign.toChar]

theorem denoted_eq (spelled : Spelled text gap sign run trail) :
    denoted text = (sign.getD .plus).apply (ofDigits (values run)) := by
  rw [denoted,spelled.values_eq,ofDigits_eq]
  simp only [spelled.minus_mem_iff]
  rcases sign with _ | _ | _ <;> simp [Sign.apply]

theorem read?_eq (spelled : Spelled text gap sign run trail) (limit : DigitLimit) :
    read? limit text = if limit.admits (values text).length then some (denoted text) else none := by
  have digits := digitRun?_eq_some_iff.mpr ⟨spelled.isRun,rfl⟩
  simp only [read?,spelled.trim_eq,spelled.splitSign_eq,digits]
  rw [spelled.values_eq,spelled.denoted_eq]
  rfl

end Spelled

theorem read?_eq_some_iff : read? limit text = some n ↔
    text ∈ numeralTexts ∧ limit.admits (values text).length = true ∧ denoted text = n := by
  constructor
  · intro reads
    obtain ⟨gap,sign,run,trail,spelled⟩ := spelled_of_read? reads
    rw [spelled.read?_eq] at reads
    split at reads
    next admitted => exact ⟨mem_numeralTexts_iff.mpr ⟨_,_,_,_,spelled⟩,admitted,Option.some.inj reads⟩
    next => cases reads
  · rintro ⟨member,admitted,rfl⟩
    obtain ⟨gap,sign,run,trail,spelled⟩ := mem_numeralTexts_iff.mp member
    rw [spelled.read?_eq,if_pos admitted]

example : let text : Text := "\u3000+\u0660\uff11_2 ".toList
    text ∈ numeralTexts ∧ DigitLimit.admits (.atMost 3) (values text).length = true ∧
      denoted text = 12 :=
  read?_eq_some_iff.mp (by decide +kernel)

end Numeral

namespace Settings

open Numeral

theorem one_le_defaultResultBits : 1 ≤ defaultResultBits := by decide

theorem one_le_readResultBits (limit : DigitLimit) (text : Text) : 1 ≤ readResultBits limit text := by
  rw [readResultBits]
  split
  · split
    next positive => exact positive
    next => exact one_le_defaultResultBits
  · exact one_le_defaultResultBits

theorem readResultBits_of_pos (reads : read? limit text = some n) (positive : 1 ≤ n) :
    readResultBits limit text = n := by
  rw [readResultBits,reads]
  exact if_pos positive

theorem readResultBits_of_not_pos (small : ∀ n, read? limit text = some n → n ≤ 0) :
    readResultBits limit text = defaultResultBits := by
  rw [readResultBits]
  split
  next n reads => exact if_neg (Int.not_lt.mpr (small n reads))
  next => rfl

theorem resultBits_ofEnvironment (limit : DigitLimit) (environment : Environment) :
    let bits := (ofEnvironment limit environment).resultBits
    1 ≤ bits ∧
    (∀ text, environment.lookup resultBitsVariable = some text →
      (∀ n, 1 ≤ n → text ∈ numeralTexts → limit.admits (values text).length = true →
        denoted text = n → bits = n) ∧
      (text ∉ numeralTexts ∨ limit.admits (values text).length = false ∨ denoted text ≤ 0 →
        bits = 2 ^ 20)) ∧
    (environment.lookup resultBitsVariable = none → bits = 2 ^ 20) := by
  intro bits
  have looks : bits =
      (environment.lookup resultBitsVariable).elim defaultResultBits (readResultBits limit) := rfl
  refine ⟨?_,fun text set => ?_,fun unset => ?_⟩
  · rw [looks]
    cases environment.lookup resultBitsVariable with
    | none => exact one_le_defaultResultBits
    | some text => exact one_le_readResultBits limit text
  · rw [looks,set]
    refine ⟨fun n positive member admitted denotes => ?_,fun fails => ?_⟩
    · exact readResultBits_of_pos (read?_eq_some_iff.mpr ⟨member,admitted,denotes⟩) positive
    · refine readResultBits_of_not_pos fun n reads => ?_
      obtain ⟨member,admitted,denotes⟩ := read?_eq_some_iff.mp reads
      rcases fails with stray | long | small
      · exact (stray member).elim
      · simp [admitted] at long
      · exact denotes ▸ small
  · rw [looks,unset]
    rfl

end Settings

end Reckoner
