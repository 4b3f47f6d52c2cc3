import Reckoner.Line
import Reckoner.Proofs.Bindings.Names
import Reckoner.Proofs.Grammar.Operand

/-!
# Lines with one operand

A line that has nothing but signs and one operand is an expression, and a line that gives an
identifier a value is an assignment, whatever the value is.
-/

namespace Reckoner

open Grammar

variable {line text lead word trail : Text} {kind : Token.Kind} {token : Token}

/-- A character of an operand, or one that may stand around it. -/
def BelongsToOperand (c : Char) : Prop :=
  c.isAlpha = true ∨ c.isDigit = true ∨ isSign c = true ∨ isBlank c = true

theorem BelongsToOperand.ne {c : Char} (belongs : BelongsToOperand c) :
    c ≠ '/' ∧ c ≠ '=' ∧ c ≠ '(' ∧ c ≠ ')' := by
  refine ⟨?_,?_,?_,?_⟩
  all_goals
    rintro rfl
    revert belongs
    unfold BelongsToOperand
    decide

theorem Grammar.SignedWord.belongs (signed : SignedWord text kind lead word trail) :
    ∀ c ∈ text, BelongsToOperand c := by
  have inside : ∀ c ∈ word, BelongsToOperand c := by
    have all := signed.all
    rcases signed.kinds with rfl | rfl
    · exact fun c member => .inl (all c member)
    · exact fun c member => .inr (.inl (all c member))
  rw [signed.split]
  refine List.forall_mem_append.mpr ⟨fun c member => .inr (.inr (signed.marks c member)),?_⟩
  exact List.forall_mem_append.mpr ⟨inside,fun c member => .inr (.inr (.inr (signed.blanks c member)))⟩

theorem Token.Signed.signedWord (signed : token.Signed) :
    ∃ kind lead word trail, SignedWord token.text kind lead word trail := by
  obtain ⟨sign,plain,isPlain,anOperand,rfl⟩ := signed
  refine ⟨plain.kind,sign.toList.map Sign.toChar,plain.text,[],?_,?_,isPlain.text_ne_nil,
    isPlain.alphabet anOperand,by simp⟩
  · simp [withSign]
  · intro c member
    obtain ⟨sign,_,rfl⟩ := List.mem_map.mp member
    exact .inl (isSign_iff.mpr ⟨sign,rfl⟩)

namespace Line

theorem ofText_operand (signed : SignedWord line kind lead word trail) :
    ofText line = .expression line.strip := by
  obtain ⟨c,member⟩ := List.exists_mem_of_ne_nil word signed.someChar
  have visible : isBlank c = false := signed.plain.solid c member
  apply ofText_expression ⟨c,by simp [signed.split,member],visible⟩
  intro d inside
  obtain ⟨noSlash,noEquals,_⟩ := (signed.belongs d inside).ne
  exact ⟨noSlash,noEquals⟩

theorem ofText_identifier {name : Text} (identifier : Grammar.isIdentifier name = true)
    (value : Text) : ofText (name ++ " = ".toList ++ value) = .assignment name value.strip := by
  obtain ⟨someLetter,letters⟩ := Grammar.isIdentifier_iff.mp identifier
  have visible : ∀ c ∈ name, isBlank c = false := (Token.Plain.identifier someLetter letters).solid
  have unmarked : ∀ c ∈ name, c ≠ '/' ∧ c ≠ '=' ∧ c ≠ '(' ∧ c ≠ ')' :=
    fun c member => BelongsToOperand.ne (.inl (letters c member))
  have apart : ∀ c ∈ name ++ [' '], c ≠ '=' := by
    simpa [or_imp,forall_and] using fun c member => (unmarked c member).2.1
  have stripped : name.strip = name :=
    Text.trim_eq_self (fun c head => visible c (List.mem_of_mem_head? head))
      (fun c last => visible c (List.mem_of_mem_getLast? last))
  have blank : ∀ c ∈ [' '], isBlank c = true := List.forall_mem_singleton.mpr rfl
  have noCommand : ∀ c ∈ (name ++ [' '] ++ '=' :: ([' '] ++ value)).strip.head?, c ≠ '/' := by
    obtain ⟨d,rest,rfl⟩ := List.exists_cons_of_ne_nil someLetter
    intro c head
    rw [Text.strip,List.cons_append,List.cons_append,
      Text.head?_trim (visible d List.mem_cons_self)] at head
    cases head
    exact (unmarked d List.mem_cons_self).1
  have before : Text.strip (name ++ [' ']) = name := (Text.trim_append_right blank name).trans stripped
  have after : Text.strip ([' '] ++ value) = value.strip := Text.trim_append_left blank value
  have parts := ofText_assignment apart noCommand
  rw [before,after] at parts
  simpa using parts

end Line
end Reckoner
