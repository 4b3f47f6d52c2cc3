import Reckoner.Proofs.Calculation.Respelling
import Reckoner.Proofs.Line.Operand
import Reckoner.Proofs.Numeral.Canonical
import Reckoner.Proofs.Session.Assignment
import Reckoner.Proofs.Token.Image

/-!
# Numerals read back

What a session prints is the canonical numeral of an integer, and any session under the same
limit reads it as that integer, on a line of its own and on the right side of an assignment:
`Session.printed_reads_back`.
-/

namespace Reckoner

open Grammar

variable {session : Session} {context : Context} {limit : DigitLimit}
  {line text name numeral : Text} {token : Token} {told : Told} {n : Int}

theorem Denotes.signed (denotes : Denotes context token told) : token.Signed := by
  cases denotes with
  | literal someDigit all | long someDigit all =>
    exact ⟨_,_,.integer someDigit all,rfl,rfl⟩
  | bound someLetter all | unbound someLetter all =>
    exact ⟨_,_,.identifier someLetter all,rfl,rfl⟩

theorem Numeral.Canonical.denotes (canonical : Numeral.Canonical numeral n)
    (short : context.digitLimit.SufficesFor n) : Denotes context ⟨.integer,numeral⟩ (.ok n) := by
  cases canonical with
  | zero =>
    have zero : ∀ c ∈ ['0'], c.isDigit = true := List.forall_mem_singleton.mpr rfl
    exact @Denotes.literal _ _ none (List.cons_ne_nil '0' []) zero short
  | @positive digits significant =>
    rw [DigitLimit.SufficesFor,Int.natAbs_natCast,significant.toDigits_decimal] at short
    exact @Denotes.literal _ _ none significant.someDigit significant.all short
  | @negative digits significant =>
    rw [DigitLimit.SufficesFor,Int.natAbs_neg,Int.natAbs_natCast,significant.toDigits_decimal] at short
    exact @Denotes.literal _ _ (some .minus) significant.someDigit significant.all short

namespace Session

theorem handle_value (expression : Line.ofText line = .expression text)
    (evaluates : session.context.calculate text = .ok n)
    (prints : Numeral.print? session.digitLimit n = some numeral) :
    ∃ trace, session.handle line = ({ output := some numeral, trace },session) := by
  obtain ⟨trace,answers⟩ := session.replyToExpression_eq text
  refine ⟨trace,?_⟩
  simp only [handle,expression,answers,evaluates,answer,prints]

theorem handle_operand (expression : Line.ofText line = .expression line.strip)
    (reads : Token.tokenize line = .ok [token]) (denotes : Denotes session.context token (.ok n))
    (short : session.digitLimit.SufficesFor n) (canonical : Numeral.Canonical numeral n) :
    ∃ trace, session.handle line = ({ output := some numeral, trace },session) := by
  have evaluates : session.context.calculate line = .ok n :=
    (session.context.calculate_operand reads denotes.isOperand).trans (told_ok_iff.mp denotes.valueOf)
  exact handle_value expression ((session.context.calculate_strip line).trans evaluates)
    (Numeral.print?_eq_some_iff.mpr ⟨short,canonical⟩)

theorem printed_of_handle (expression : Line.ofText line = .expression text)
    (succeeds : (session.handle line).1.ok = true)
    (prints : (session.handle line).1.output = some numeral) :
    ∃ n, session.context.calculate text = .ok n ∧
      Numeral.print? session.digitLimit n = some numeral := by
  obtain ⟨trace,answers⟩ := session.replyToExpression_eq text
  rw [handle_expression expression,answers] at succeeds prints
  cases evaluates : session.context.calculate text with
  | error failure => simp [evaluates,answer,Reply.ok,Reply.fail] at succeeds
  | ok n =>
    refine ⟨n,rfl,?_⟩
    cases printed : Numeral.print? session.digitLimit n with
    | none => simp [evaluates,answer,printed,Reply.ok,Reply.fail] at succeeds
    | some other => simpa [evaluates,answer,printed] using prints

/-- The numeral counts as the integer wherever a line may have it. -/
structure ReadsBack (session : Session) (numeral : Text) (n : Int) : Prop where
  evaluates : session.context.calculate numeral = .ok n
  /-- On a line of its own it is answered by itself. -/
  answered : ∃ trace, session.handle numeral = ({ output := some numeral, trace },session)
  /-- On the right side of an assignment it is the value of the name. -/
  assigned : ∀ name, isIdentifier name = true →
    ∃ next, session.handle (name ++ " = ".toList ++ numeral) = ({},next) ∧
      next.bindings.get? name = some n

theorem readsBack (canonical : Numeral.Canonical numeral n)
    (short : session.digitLimit.SufficesFor n) : session.ReadsBack numeral n := by
  have denotes : Denotes session.context ⟨.integer,numeral⟩ (.ok n) := canonical.denotes short
  have reads : Token.tokenize numeral = .ok [⟨.integer,numeral⟩] := denotes.signed.tokenize
  have evaluates : session.context.calculate numeral = .ok n :=
    (session.context.calculate_operand reads rfl).trans (told_ok_iff.mp denotes.valueOf)
  refine ⟨evaluates,?_,fun name identifier => ?_⟩
  · obtain ⟨_,_,_,_,signed⟩ := denotes.signed.signedWord
    exact handle_operand (Line.ofText_operand signed) reads denotes short canonical
  · have single := (Token.tokenize_strip numeral).trans reads
    have assigns : session.Assigns (name ++ " = ".toList ++ numeral) name n :=
      ⟨Line.ofText_identifier identifier numeral,identifier,single,denotes⟩
    refine ⟨_,assigns.handle,?_⟩
    simp [Bindings.get?,Bindings.lookup_assign]

/-- Under one limit, printing and reading are inverse to each other: whatever is printed is read
back as the integer that was computed, and so is the numeral of every integer that the limit
admits. -/
theorem printed_reads_back (limit : DigitLimit) :
    (∀ (session : Session) (line text numeral : Text), session.digitLimit = limit →
      Line.ofText line = .expression text → (session.handle line).1.ok = true →
      (session.handle line).1.output = some numeral →
      ∃ n, session.context.calculate text = .ok n ∧ Numeral.Canonical numeral n ∧
        ∀ other : Session, other.digitLimit = limit → other.ReadsBack numeral n) ∧
    ∀ n : Int, limit.SufficesFor n → ∃ numeral, Numeral.Canonical numeral n ∧
      ∀ other : Session, other.digitLimit = limit → other.ReadsBack numeral n := by
  refine ⟨?_,fun n short => ?_⟩
  · rintro session line text numeral rfl expression succeeds prints
    obtain ⟨n,evaluates,printed⟩ := printed_of_handle expression succeeds prints
    obtain ⟨short,canonical⟩ := Numeral.print?_eq_some_iff.mp printed
    refine ⟨n,evaluates,canonical,fun other same => ?_⟩
    rw [← same] at short
    exact readsBack canonical short
  · refine ⟨Numeral.write n,Numeral.canonical_write n,?_⟩
    rintro other rfl
    exact readsBack (Numeral.canonical_write n) short

theorem printed_reads_back_of_negative :
    let session : Session := { bindings := ⟨[("n".toList,-1000)]⟩, digitLimit := .atMost 3 }
    session.handle " n + 1".toList = ({ output := some "-999".toList },session) ∧
    ∃ n, session.context.calculate "n + 1".toList = .ok n ∧ Numeral.Canonical "-999".toList n ∧
      ∀ other : Session, other.digitLimit = .atMost 3 → other.ReadsBack "-999".toList n := by
  intro session
  have handles : session.handle " n + 1".toList = ({ output := some "-999".toList },session) := by
    decide
  have succeeds : (session.handle " n + 1".toList).1.ok = true := by rw [handles]; rfl
  have prints : (session.handle " n + 1".toList).1.output = some "-999".toList := by rw [handles]
  exact ⟨handles,(printed_reads_back (.atMost 3)).1 session _ _ _ rfl rfl succeeds prints⟩

end Session
end Reckoner
