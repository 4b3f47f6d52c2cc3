import Reckoner.Proofs.Calculation.Outcome
import Reckoner.Proofs.Sign.Collapse

/-!
# Respelled texts

Blanks matter only where they part two characters of one word, and of a run of signs only the
parity of its minuses does. Texts that differ in nothing else are read as the same tokens and
have the same outcome in every context: `Context.calculate_respelled`.
-/

namespace Reckoner

open Token

variable {a b u w v : Text}

namespace Sign

/-- Signs with blanks between or after them. -/
structure IsRun (run : Text) : Prop where
  begins : ∃ sign rest, run = toChar sign :: rest
  marks : ∀ c ∈ run, isSign c = true ∨ isBlank c = true

theorem IsRun.collapse {run : Text} (isRun : IsRun run) (text : Text) :
    collapse (run ++ text) = collapseFrom (some (parity run)) text := by
  obtain ⟨⟨sign,rest,rfl⟩,marks⟩ := isRun
  exact collapse_signs (fun c member => marks c (List.mem_cons_of_mem _ member)) sign text

theorem IsRun.lexical {run : Text} (isRun : IsRun run) : ∀ c ∈ run, Lexical c :=
  fun c member => lexical_of_mark (isRun.marks c member)

theorem collapse_exchange {run other : Text} (isRun : IsRun run) (otherRun : IsRun other)
    (same : parity run = parity other) (front back : Text) :
    collapse (front ++ run ++ back) = collapse (front ++ other ++ back) := by
  rw [List.append_assoc,List.append_assoc]
  rcases collapse_split front with ⟨out,sign,goesOn⟩ | ⟨out,_,goesOn⟩
  · rw [goesOn,goesOn,collapseFrom_run isRun.marks,collapseFrom_run otherRun.marks,same]
  · rw [goesOn,goesOn,isRun.collapse,otherRun.collapse,same]

end Sign

namespace Token

theorem scan_collapse_blanks (blanks : ∀ c ∈ w, isBlank c = true)
    (apart : ∀ a ∈ u.getLast?, ∀ b ∈ v.head?, joins a b = false) :
    scan (Sign.collapse (u ++ w ++ v)) = scan (Sign.collapse (u ++ v)) := by
  rw [List.append_assoc]
  rcases Sign.collapse_split u with ⟨out,sign,goesOn⟩ | ⟨out,last,goesOn⟩
  · rw [goesOn,goesOn,Sign.collapseFrom_blanks blanks]
  · have unsigned : ∀ c ∈ w, isSign c = false := fun c member => Sign.isSign_of_isBlank (blanks c member)
    rw [goesOn,goesOn,Sign.collapse,Sign.collapseFrom_append unsigned,← Sign.collapse]
    have together : ∀ a ∈ out.getLast?, ∀ b ∈ (Sign.collapse v).head?, joins a b = false := by
      intro a written b head
      rcases Sign.mem_head?_collapse head with head | signed
      · exact apart a (last ▸ written) b head
      · rw [joins_comm,joins_of_isSign signed]
    rw [scan_append_blanks blanks fun _ => together,scan_append together]

end Token

/-- One text is another in which blanks are inserted that part no word, or in which a run of
signs is exchanged for one of the same parity. -/
inductive Respelled : Text → Text → Prop
  | blanks (u w v : Text) (blanks : ∀ c ∈ w, isBlank c = true)
      (apart : ∀ a ∈ u.getLast?, ∀ b ∈ v.head?, joins a b = false) :
      Respelled (u ++ w ++ v) (u ++ v)
  | signs (u run other v : Text) (isRun : Sign.IsRun run) (otherRun : Sign.IsRun other)
      (same : Odd (run.count '-') ↔ Odd (other.count '-')) :
      Respelled (u ++ run ++ v) (u ++ other ++ v)

theorem Respelled.scan_collapse (respelled : Respelled a b) :
    scan (Sign.collapse a) = scan (Sign.collapse b) := by
  cases respelled with
  | blanks u w v blanks apart => exact scan_collapse_blanks blanks apart
  | signs u run other v isRun otherRun same =>
    have parity : Sign.parity run = Sign.parity other := by simp only [Sign.parity,same]
    rw [Sign.collapse_exchange isRun otherRun parity]

theorem Respelled.lexical_iff (respelled : Respelled a b) :
    (∀ c ∈ a, Lexical c) ↔ ∀ c ∈ b, Lexical c := by
  cases respelled with
  | blanks u w v blanks _ =>
    have lexical : ∀ c ∈ w, Lexical c := fun c member => lexical_of_isBlank (blanks c member)
    simp only [List.forall_mem_append,iff_true_intro lexical,and_true]
  | signs u run other v isRun otherRun _ =>
    simp only [List.forall_mem_append,iff_true_intro isRun.lexical,iff_true_intro otherRun.lexical]

theorem Respelled.tokenize_eq (respelled : Respelled a b) : tokenize a = tokenize b := by
  by_cases lexical : ∀ c ∈ a, Lexical c
  · rw [tokenize_of_lexical lexical,tokenize_of_lexical (respelled.lexical_iff.mp lexical),
      respelled.scan_collapse]
  · have stray := mt respelled.lexical_iff.mpr lexical
    rw [tokenize_of_not_lexical (by simpa using lexical),tokenize_of_not_lexical (by simpa using stray)]

theorem Token.tokenize_strip (text : Text) : tokenize text.strip = tokenize text := by
  obtain ⟨gap,trail,split,before,after⟩ := Text.trim_split isBlank text
  have front := (Respelled.blanks [] gap (text.strip ++ trail) before (by simp)).tokenize_eq
  have back := (Respelled.blanks text.strip trail [] after (by simp)).tokenize_eq
  simp only [List.nil_append,List.append_nil] at front back
  rw [← back,← front,Text.strip,← split]

theorem Context.calculate_eq_bind (context : Context) (text : Text) :
    context.calculate text = (tokenize text).bind fun tokens =>
      if Grammar.alternates .operand tokens then (toPostfix tokens).bind context.evaluate
      else .error .misplacedToken := by
  cases read : tokenize text with
  | error failure =>
    rw [calculate,Stages.ofText,read]
    rfl
  | ok tokens =>
    rw [calculate,Stages.ofText_of_read read]
    simp only [Except.bind]
    split
    · cases toPostfix tokens <;> rfl
    · rfl

theorem Context.calculate_strip (context : Context) (text : Text) :
    context.calculate text.strip = context.calculate text := by
  rw [calculate_eq_bind,calculate_eq_bind,Token.tokenize_strip]

theorem Context.calculate_respelled (respelled : Respelled a b) :
    tokenize a = tokenize b ∧ ∀ context : Context, context.calculate a = context.calculate b := by
  refine ⟨respelled.tokenize_eq,fun context => ?_⟩
  rw [calculate_eq_bind,calculate_eq_bind,respelled.tokenize_eq]

theorem Context.calculate_respelled_twice :
    (tokenize "2*- -n".toList = tokenize "2*--n".toList ∧
      ∀ context : Context, context.calculate "2*- -n".toList = context.calculate "2*--n".toList) ∧
    tokenize "(2 -- \t- n)".toList = tokenize "(2 +-n)".toList ∧
      ∀ context : Context, context.calculate "(2 -- \t- n)".toList = context.calculate "(2 +-n)".toList := by
  have blank : ∀ c ∈ [' '], isBlank c = true := List.forall_mem_singleton.mpr rfl
  have apart : ∀ a ∈ "2*-".toList.getLast?, ∀ b ∈ "-n".toList.head?, joins a b = false := by
    rintro a ⟨⟩ b ⟨⟩
    rfl
  have long : Sign.IsRun "-- \t- ".toList :=
    ⟨⟨.minus,"- \t- ".toList,rfl⟩,by simp; decide⟩
  have short : Sign.IsRun "+-".toList := ⟨⟨.plus,['-'],rfl⟩,by simp; decide⟩
  exact ⟨calculate_respelled (.blanks "2*-".toList [' '] "-n".toList blank apart),
    calculate_respelled (.signs "(2 ".toList _ _ "n)".toList long short (by decide))⟩

end Reckoner
