import Reckoner.Text

/-!
# Lines of a text
-/

namespace Reckoner.Text

/-- A line feed, a carriage return, or the two together in this order end a line; the last
line may lack its end. -/
def lines : Text → List Text
  | [] => []
  | '\r' :: '\n' :: rest => [] :: lines rest
  | c :: rest =>
    if c = '\n' || c = '\r' then [] :: lines rest
    else
      match lines rest with
      | [] => [[c]]
      | line :: later => (c :: line) :: later

/-- Writes lines out, a line feed after each. -/
def unlines (lines : List Text) : Text := lines.flatMap (· ++ ['\n'])

theorem lines_cons {c : Char} (inside : c ≠ '\n' ∧ c ≠ '\r') (rest : Text) :
    lines (c :: rest) = (c :: (lines rest).headD []) :: (lines rest).tail := by
  rw [lines]
  · simp only [inside,decide_false,Bool.or_self,Bool.false_eq_true,if_false]
    cases lines rest <;> rfl
  · intro _ same; exact (inside.2 same).elim

theorem lines_cons_of_end {c : Char} {rest : Text} (ends : c = '\n' ∨ c = '\r')
    (single : ∀ later, c = '\r' → rest ≠ '\n' :: later) : lines (c :: rest) = [] :: lines rest := by
  rw [lines]
  · simp [ends]
  · exact single

theorem lines_ne_nil (c : Char) (rest : Text) : lines (c :: rest) ≠ [] := by
  unfold lines
  split
  · contradiction
  · exact List.cons_ne_nil _ _
  · split
    · exact List.cons_ne_nil _ _
    · split <;> exact List.cons_ne_nil _ _

theorem lines_append (line rest : Text) (whole : ∀ c ∈ line, c ≠ '\n' ∧ c ≠ '\r') :
    lines (line ++ '\n' :: rest) = line :: lines rest := by
  induction line with
  | nil => simp [lines]
  | cons c line ih =>
    have later := ih fun d member => whole d (List.mem_cons_of_mem c member)
    rw [List.cons_append,lines_cons (whole c List.mem_cons_self),later]
    rfl

theorem lines_append_feed (front back : Text) :
    lines (front ++ '\n' :: back) = lines (front ++ ['\n']) ++ lines back := by
  induction front using lines.induct with
  | case1 => simp [lines]
  | case2 rest ih => simp [lines,ih]
  | case3 c rest apart ends ih =>
    have ends : c = '\n' ∨ c = '\r' := by simpa using ends
    cases rest with
    | nil => rcases ends with rfl | rfl <;> simp [lines]
    | cons d rest =>
      have single (back : Text) : ∀ later, c = '\r' → d :: (rest ++ back) ≠ '\n' :: later := by
        simpa using apart
      simp only [List.cons_append] at ih ⊢
      rw [lines_cons_of_end ends (single _),lines_cons_of_end ends (single _),ih,List.cons_append]
  | case4 c rest _ inside _ ih | case5 c rest _ inside _ _ _ ih =>
    have inside : c ≠ '\n' ∧ c ≠ '\r' := by simpa using inside
    have some : lines (rest ++ ['\n']) ≠ [] := by cases rest <;> exact lines_ne_nil _ _
    obtain ⟨line,later,read⟩ := List.exists_cons_of_ne_nil some
    rw [List.cons_append,List.cons_append,lines_cons inside,lines_cons inside,ih,read]
    rfl

theorem lines_unlines (written : List Text)
    (whole : ∀ line ∈ written, ∀ c ∈ line, c ≠ '\n' ∧ c ≠ '\r') :
    lines (unlines written) = written := by
  induction written with
  | nil => rfl
  | cons line later ih =>
    have rest := ih fun other member => whole other (List.mem_cons_of_mem line member)
    simp only [unlines] at rest
    simp [unlines,lines_append line _ (whole line List.mem_cons_self),rest]

end Reckoner.Text
