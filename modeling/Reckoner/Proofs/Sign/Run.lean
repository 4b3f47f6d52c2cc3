import Mathlib.Algebra.Ring.Int.Parity
import Reckoner.Proofs.Token.Words

/-!
# Runs of signs

A run counts as the sign of its parity: collapsing takes its signs and blanks in and writes
that one sign where the next other character stands.
-/

namespace Reckoner

namespace Sign

/-- Minus for an odd number of minuses. -/
def parity (run : Text) : Sign := if Odd (run.count '-') then minus else plus

/-- The sign that a run counts as, if there is a sign in it. -/
def ofRun? (run : Text) : Option Sign := if run.any isSign then some (parity run) else none

theorem count_of_unsigned {run : Text} (unsigned : ¬ run.any isSign = true) : run.count '-' = 0 := by
  apply List.count_eq_zero.mpr
  intro member
  exact unsigned (List.any_eq_true.mpr ⟨'-',member,rfl⟩)

theorem ofRun?_eq_minus_iff {run : Text} : ofRun? run = some minus ↔ Odd (run.count '-') := by
  rw [ofRun?]
  split
  next =>
    rw [parity]
    split <;> simp [*]
  next unsigned => simp [count_of_unsigned unsigned]

theorem getD_ofRun? (run : Text) : (ofRun? run).getD plus = parity run := by
  rw [ofRun?]
  split
  next => rfl
  next unsigned => simp [parity,count_of_unsigned unsigned]

theorem apply_parity (run : Text) (n : Int) : (parity run).apply n = (-1) ^ run.count '-' * n := by
  rw [parity]
  split
  next odd => simp [apply,odd.neg_one_pow]
  next even => simp [apply,(Nat.not_odd_iff_even.mp even).neg_one_pow]

theorem parity_cons_of_ne {c : Char} (other : c ≠ '-') (run : Text) :
    parity (c :: run) = parity run := by
  simp [parity,other]

theorem parity_cons (sign : Sign) (run : Text) : parity (sign.toChar :: run) = sign * parity run := by
  cases sign with
  | plus => exact parity_cons_of_ne (by decide) run
  | minus =>
    have flips : Odd ((minus.toChar :: run).count '-') ↔ ¬ Odd (run.count '-') := by
      simp [toChar,Nat.odd_add_one]
    rw [parity,parity]
    by_cases odd : Odd (run.count '-') <;> simp only [flips,odd] <;> rfl

theorem mul_assoc (a b c : Sign) : a * b * c = a * (b * c) := by
  cases a <;> cases b <;> cases c <;> rfl

theorem collapseFrom_append {part : Text} (unsigned : ∀ c ∈ part, isSign c = false) (text : Text) :
    collapseFrom none (part ++ text) = part ++ collapseFrom none text := by
  induction part with
  | nil => rfl
  | cons c part ih =>
    have here := unsigned c List.mem_cons_self
    have later := ih fun d member => unsigned d (List.mem_cons_of_mem c member)
    rw [List.cons_append,List.cons_append,collapseFrom_none_other here,later]

theorem collapseFrom_run {run : Text} (marks : ∀ c ∈ run, isSign c = true ∨ isBlank c = true)
    (sign : Sign) (text : Text) :
    collapseFrom (some sign) (run ++ text) = collapseFrom (some (sign * parity run)) text := by
  induction run generalizing sign with
  | nil => cases sign <;> rfl
  | cons c run ih =>
    have later := fun sign => ih (fun d member => marks d (List.mem_cons_of_mem c member)) sign
    rcases marks c List.mem_cons_self with signed | blank
    · obtain ⟨other,rfl⟩ := isSign_iff.mp signed
      rw [List.cons_append,collapseFrom_some_sign,parity_cons,← mul_assoc]
      exact later (sign * other)
    · have other : c ≠ '-' := by
        rintro rfl
        cases blank
      rw [parity_cons_of_ne other,List.cons_append,collapseFrom_some_blank blank]
      exact later sign

theorem collapseFrom_blanks {gap : Text} (blanks : ∀ c ∈ gap, isBlank c = true) (sign : Sign)
    (text : Text) : collapseFrom (some sign) (gap ++ text) = collapseFrom (some sign) text := by
  have even : parity gap = plus := by
    have noneCounts : gap.count '-' = 0 :=
      List.count_eq_zero.mpr fun member => by cases blanks '-' member
    simp [parity,noneCounts]
  have same : sign * plus = sign := by cases sign <;> rfl
  rw [collapseFrom_run fun c member => .inr (blanks c member),even,same]

theorem collapseFrom_word {gap word : Text} {c : Char} {rest : Text}
    (blanks : ∀ d ∈ gap, isBlank d = true) (unsigned : ∀ d ∈ word, isSign d = false)
    (spells : word = c :: rest) (visible : isBlank c = false) (sign : Sign) (text : Text) :
    collapseFrom (some sign) (gap ++ (word ++ text)) =
      sign.toChar :: (word ++ collapseFrom none text) := by
  subst spells
  obtain ⟨here,tail⟩ := List.forall_mem_cons.mp unsigned
  rw [collapseFrom_blanks blanks,List.cons_append,List.cons_append,
    collapseFrom_some_other here visible,collapseFrom_append tail]

theorem collapse_signs {run : Text} (marks : ∀ c ∈ run, isSign c = true ∨ isBlank c = true)
    (sign : Sign) (text : Text) :
    collapse (sign.toChar :: run ++ text) =
      collapseFrom (some (parity (sign.toChar :: run))) text := by
  rw [collapse,List.cons_append,collapseFrom_none_sign,parity_cons]
  exact collapseFrom_run marks sign text

theorem collapse_run {run : Text} (marks : ∀ c ∈ run, isSign c = true ∨ isBlank c = true)
    (signed : ∃ c ∈ run, isSign c = true) (text : Text) :
    ∃ gap, (∀ c ∈ gap, isBlank c = true) ∧
      collapse (run ++ text) = gap ++ collapseFrom (some (parity run)) text := by
  induction run with
  | nil => simp at signed
  | cons c run ih =>
    have later : ∀ d ∈ run, isSign d = true ∨ isBlank d = true :=
      fun d member => marks d (List.mem_cons_of_mem c member)
    cases here : isSign c with
    | true =>
      obtain ⟨sign,rfl⟩ := isSign_iff.mp here
      exact ⟨[],by simp,collapse_signs later sign text⟩
    | false =>
      have blank : isBlank c = true := (marks c List.mem_cons_self).resolve_left (by simp [here])
      obtain ⟨d,member,aSign⟩ := signed
      have inner : d ∈ run := (List.mem_cons.mp member).resolve_left (by rintro rfl; simp [here] at aSign)
      obtain ⟨gap,blanks,collapses⟩ := ih later ⟨d,inner,aSign⟩
      refine ⟨c :: gap,by simpa [blank] using blanks,?_⟩
      have other : c ≠ '-' := by
        rintro rfl
        cases here
      rw [parity_cons_of_ne other,collapse,List.cons_append,collapseFrom_none_other here]
      exact congrArg (c :: ·) collapses

end Sign
end Reckoner
