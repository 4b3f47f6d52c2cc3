import Reckoner.Proofs.Session.Readback
import Reckoner.Proofs.Session.Table

/-!
# Bound values can be printed

An assignment binds the value of one operand, whose digits are admitted when it is a literal and
are those of a bound value otherwise. So a table of values that can be printed stays one, and the
line of a bound name is always answered by its value: `Session.bound_stays_printable`.
-/

namespace Reckoner

open Grammar

variable {session : Session} {context : Context} {bindings : Bindings} {limit : DigitLimit}
  {name lead trail : Text} {token : Token} {n : Int}

/-- The limit admits the digits of every value. -/
def Bindings.Printable (limit : DigitLimit) (bindings : Bindings) : Prop :=
  ∀ entry ∈ bindings.entries, limit.SufficesFor entry.2

namespace Bindings.Printable

theorem get? (printable : Printable limit bindings) (bound : bindings.get? name = some n) :
    limit.SufficesFor n := by
  obtain ⟨front,back,entries,_⟩ := List.lookup_eq_some_iff.mp bound
  exact printable (name,n) (by simp [entries])

theorem assign (printable : Printable limit bindings) (short : limit.SufficesFor n) :
    Printable limit ⟨Bindings.assign name n bindings.entries⟩ := by
  intro entry member
  rcases eq_or_mem_of_mem_assign member with rfl | before
  · exact short
  · exact printable entry before

end Bindings.Printable

theorem DigitLimit.SufficesFor.signed (short : limit.SufficesFor n) (flips : Prop) [Decidable flips] :
    limit.SufficesFor (if flips then -n else n) := by
  split
  · rwa [SufficesFor,Int.natAbs_neg]
  · exact short

theorem Denotes.sufficesFor (printable : context.bindings.Printable context.digitLimit)
    (denotes : Denotes context token (.ok n)) : context.digitLimit.SufficesFor n := by
  cases denotes with
  | literal someDigit all admits =>
    exact (Numeral.sufficesFor_decimal someDigit all admits (Int.natAbs_natCast _)).signed _
  | bound _ _ binds => exact (printable.get? binds).signed _

namespace Session

theorem printable_handle (printable : session.bindings.Printable session.digitLimit) (line : Text) :
    (session.handle line).2.digitLimit = session.digitLimit ∧
      (session.handle line).2.bindings.Printable session.digitLimit := by
  rcases session.handle_cases line with ⟨_,same⟩ | ⟨name,n,_,assigns,_⟩
  · rw [same]
    exact ⟨rfl,printable⟩
  · rw [assigns.handle]
    obtain ⟨_,_,_,denotes⟩ := assigns
    exact ⟨rfl,printable.assign (denotes.sufficesFor printable)⟩

theorem printable_after (printable : session.bindings.Printable session.digitLimit)
    (lines : List Text) : (session.after lines).digitLimit = session.digitLimit ∧
      (session.after lines).bindings.Printable session.digitLimit := by
  induction lines generalizing session with
  | nil => exact ⟨rfl,printable⟩
  | cons line rest ih =>
    obtain ⟨same,kept⟩ := printable_handle printable line
    rw [← same] at kept ⊢
    exact ih kept

theorem handle_bound (printable : session.bindings.Printable session.digitLimit)
    (identifier : isIdentifier name = true) (bound : session.bindings.get? name = some n)
    (marks : ∀ c ∈ lead, isSign c = true ∨ isBlank c = true)
    (blanks : ∀ c ∈ trail, isBlank c = true) :
    ∃ numeral trace, Numeral.Canonical numeral (if Odd (lead.count '-') then -n else n) ∧
      session.handle (lead ++ (name ++ trail)) = ({ output := some numeral, trace },session) := by
  obtain ⟨someLetter,letters⟩ := isIdentifier_iff.mp identifier
  have signed : SignedWord (lead ++ (name ++ trail)) .identifier lead name trail :=
    ⟨rfl,marks,someLetter,letters,blanks⟩
  have reads := signed.tokenize
  have denotes : Denotes session.context (Token.withSign (Sign.ofRun? lead) ⟨.identifier,name⟩)
      (.ok (if Odd (lead.count '-') then -n else n)) := by
    simpa only [Sign.ofRun?_eq_minus_iff] using
      @Denotes.bound session.context _ _ (Sign.ofRun? lead) someLetter letters bound
  have short : session.digitLimit.SufficesFor (if Odd (lead.count '-') then -n else n) :=
    denotes.sufficesFor printable
  have canonical := Numeral.canonical_write (if Odd (lead.count '-') then -n else n)
  obtain ⟨trace,answered⟩ :=
    handle_operand (Line.ofText_operand signed) reads denotes short canonical
  exact ⟨_,trace,canonical,answered⟩

theorem bound_stays_printable (printable : session.bindings.Printable session.digitLimit)
    (lines : List Text) :
    (session.table lines).Printable session.digitLimit ∧
    ∀ lead name trail n, (∀ c ∈ lead, isSign c = true ∨ isBlank c = true) →
      isIdentifier name = true → (∀ c ∈ trail, isBlank c = true) →
      (session.table lines).get? name = some n →
      ∃ numeral trace, Numeral.Canonical numeral (if Odd (lead.count '-') then -n else n) ∧
        (session.after lines).handle (lead ++ (name ++ trail)) =
          ({ output := some numeral, trace },session.after lines) := by
  obtain ⟨same,kept⟩ := printable_after printable lines
  refine ⟨kept,fun lead name trail n marks identifier blanks bound => ?_⟩
  rw [← same] at kept
  exact handle_bound kept identifier bound marks blanks

theorem bound_stays_printable_of_three_digits :
    let session : Session :=
      { bindings := ⟨[("a".toList,-12),("b".toList,999)]⟩, digitLimit := .atMost 3 }
    let lines := ["c = - -b".toList,"a = b * b".toList,"a = 1000".toList,"b = -+007".toList]
    session.bindings.Printable session.digitLimit ∧
    (session.table lines).Printable session.digitLimit ∧
    ∀ lead name trail n, (∀ c ∈ lead, isSign c = true ∨ isBlank c = true) →
      isIdentifier name = true → (∀ c ∈ trail, isBlank c = true) →
      (session.table lines).get? name = some n →
      ∃ numeral trace, Numeral.Canonical numeral (if Odd (lead.count '-') then -n else n) ∧
        (session.after lines).handle (lead ++ (name ++ trail)) =
          ({ output := some numeral, trace },session.after lines) := by
  intro session lines
  have printable : session.bindings.Printable session.digitLimit := by
    simp [session,Bindings.Printable,DigitLimit.SufficesFor]
    decide
  exact ⟨printable,bound_stays_printable printable lines⟩

end Session
end Reckoner
