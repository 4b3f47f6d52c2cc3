import Reckoner.Text

/-!
# Signs

A run of signs, with blanks between and after them, counts as one sign: minus when it
holds an odd number of minuses, plus otherwise. `Sign.collapse` writes every run of a text
as its one sign; all other characters stay.
-/

namespace Reckoner

inductive Sign where
  | plus
  | minus
  deriving DecidableEq, Repr

namespace Sign

def ofChar? : Char → Option Sign
  | '+' => some plus
  | '-' => some minus
  | _ => none

def toChar : Sign → Char
  | plus => '+'
  | minus => '-'

/-- Two signs in a row. -/
def mul : Sign → Sign → Sign
  | plus, s => s
  | minus, plus => minus
  | minus, minus => plus

instance : Mul Sign := ⟨mul⟩

def apply : Sign → Int → Int
  | plus, n => n
  | minus, n => -n

/-- Scans with the product of the run that is open, if one is. -/
def collapseFrom : Option Sign → Text → Text
  | none, [] => []
  | some run, [] => [run.toChar]
  | none, c :: rest =>
    match ofChar? c with
    | some s => collapseFrom (some s) rest
    | none => c :: collapseFrom none rest
  | some run, c :: rest =>
    match ofChar? c with
    | some s => collapseFrom (some (run * s)) rest
    | none =>
      if isBlank c then collapseFrom (some run) rest
      else run.toChar :: c :: collapseFrom none rest

def collapse (text : Text) : Text := collapseFrom none text

@[simp] theorem ofChar?_toChar (s : Sign) : ofChar? s.toChar = some s := by cases s <;> rfl

theorem eq_toChar_of_ofChar? {c : Char} {s : Sign} (h : ofChar? c = some s) : c = s.toChar := by
  unfold ofChar? at h
  split at h <;> cases h <;> rfl

end Sign

def isSign (c : Char) : Bool := (Sign.ofChar? c).isSome

namespace Sign

theorem ofChar?_eq_none {c : Char} (signed : isSign c = false) : ofChar? c = none := by
  simpa [isSign] using signed

theorem isSign_of_isBlank {c : Char} (blank : isBlank c = true) : isSign c = false := by
  cases aSign : ofChar? c with
  | none => simp [isSign, aSign]
  | some sign =>
    obtain rfl := eq_toChar_of_ofChar? aSign
    cases sign <;> cases blank

@[simp] theorem collapseFrom_none_sign (sign : Sign) (rest : Text) :
    collapseFrom none (sign.toChar :: rest) = collapseFrom (some sign) rest := by
  cases sign <;> rfl

@[simp] theorem collapseFrom_some_sign (run sign : Sign) (rest : Text) :
    collapseFrom (some run) (sign.toChar :: rest) = collapseFrom (some (run * sign)) rest := by
  cases sign <;> rfl

theorem collapseFrom_none_other {c : Char} (signed : isSign c = false) (rest : Text) :
    collapseFrom none (c :: rest) = c :: collapseFrom none rest := by
  simp only [collapseFrom, ofChar?_eq_none signed]

theorem collapseFrom_some_blank {c : Char} (blank : isBlank c = true) (run : Sign) (rest : Text) :
    collapseFrom (some run) (c :: rest) = collapseFrom (some run) rest := by
  simp only [collapseFrom, ofChar?_eq_none (isSign_of_isBlank blank), blank, if_true]

theorem collapseFrom_some_other {c : Char} (signed : isSign c = false) (blank : isBlank c = false)
    (run : Sign) (rest : Text) :
    collapseFrom (some run) (c :: rest) = run.toChar :: c :: collapseFrom none rest := by
  simp [collapseFrom, ofChar?_eq_none signed, blank]

end Sign
end Reckoner
