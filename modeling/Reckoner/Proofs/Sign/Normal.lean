import Reckoner.Proofs.Sign.Collapse

/-!
# Normal texts

Collapsing writes each run of signs as one sign and leaves everything else in its place. In what
it writes the signs settle, and such a text is its own collapse: `Sign.collapse_normal`.
-/

namespace Reckoner.Sign

def isVisible (c : Char) : Bool := !isSign c && !isBlank c

theorem isVisible_iff {c : Char} : isVisible c = true ↔ isSign c = false ∧ isBlank c = false := by
  simp [isVisible]

/-- A text, and what it is with each run written as the sign of its parity. A run begins with a
sign and goes on, over signs and blanks, up to a visible character or the end of the text. -/
inductive Rewritten : Text → Text → Prop
  | nil : Rewritten [] []
  | other (unsigned : isSign c = false) (rest : Rewritten text out) :
      Rewritten (c :: text) (c :: out)
  | run (sign : Sign) (marks : ∀ c ∈ run, isSign c = true ∨ isBlank c = true)
      (ends : ∀ c ∈ text.head?, isVisible c = true) (rest : Rewritten text out) :
      Rewritten (sign.toChar :: run ++ text) ((parity (sign.toChar :: run)).toChar :: out)

variable {text out : Text}

theorem Rewritten.collapse (rewritten : Rewritten text out) : Sign.collapse text = out := by
  induction rewritten with
  | nil => rfl
  | other unsigned _ ih => rw [Sign.collapse,collapseFrom_none_other unsigned,← Sign.collapse,ih]
  | run sign marks ends _ ih =>
    have visible := fun c head => isVisible_iff.mp (ends c head)
    rw [collapse_signs marks,collapseFrom_some_visible _ visible,ih]

theorem exists_rewritten (text : Text) : ∃ out, Rewritten text out := by
  match text with
  | [] => exact ⟨[],.nil⟩
  | c :: rest =>
    cases signed : isSign c with
    | false =>
      obtain ⟨out,rewritten⟩ := exists_rewritten rest
      exact ⟨c :: out,.other signed rewritten⟩
    | true =>
      obtain ⟨sign,rfl⟩ := isSign_iff.mp signed
      obtain ⟨run,later,split,marks,ends⟩ := Text.split_left (!isVisible ·) rest
      have shorter : later.length ≤ rest.length := by simp [split]
      obtain ⟨out,rewritten⟩ := exists_rewritten later
      subst split
      refine ⟨_,.run sign ?_ ?_ rewritten⟩
      · intro c member
        have mark := marks c member
        simpa [isVisible,Decidable.or_iff_not_imp_left] using mark
      · simpa using ends
termination_by text.length
decreasing_by all_goals simp only [List.length_cons]; omega

theorem rewritten_iff : Rewritten text out ↔ collapse text = out := by
  refine ⟨Rewritten.collapse,?_⟩
  rintro rfl
  obtain ⟨out,rewritten⟩ := exists_rewritten text
  rwa [rewritten.collapse]

theorem exists_of_collapse_append {front : Text} (unsigned : ∀ c ∈ front, isSign c = false)
    (collapses : collapse text = front ++ out) : ∃ rest, text = front ++ rest ∧ collapse rest = out := by
  induction front generalizing text with
  | nil => exact ⟨text,rfl,collapses⟩
  | cons c front ih =>
    obtain ⟨here,later⟩ := List.forall_mem_cons.mp unsigned
    cases rewritten_iff.mpr collapses with
    | other _ rewritten =>
      obtain ⟨rest,rfl,follows⟩ := ih later rewritten.collapse
      exact ⟨rest,rfl,follows⟩
    | run => simp [isSign] at here

theorem eq_of_collapse (unsigned : ∀ c ∈ out, isSign c = false) (collapses : collapse text = out) :
    text = out := by
  have whole := collapses.trans (List.append_nil out).symm
  obtain ⟨rest,rfl,ends⟩ := exists_of_collapse_append unsigned whole
  cases rewritten_iff.mpr ends
  exact List.append_nil out

theorem exists_run_of_collapse {sign : Sign} (collapses : collapse text = sign.toChar :: out) :
    ∃ run rest, text = run ++ rest ∧ (∀ c ∈ run, isSign c = true ∨ isBlank c = true) ∧
      collapse rest = out := by
  have rewritten := rewritten_iff.mpr collapses
  generalize written : sign.toChar :: out = whole at rewritten
  cases rewritten with
  | nil => cases written
  | other unsigned =>
    obtain ⟨rfl,_⟩ := List.cons.inj written
    simp [isSign] at unsigned
  | @run run rest later first marks _ rewritten =>
    obtain ⟨_,rfl⟩ := List.cons.inj written
    have signed : isSign first.toChar = true := isSign_iff.mpr ⟨first,rfl⟩
    exact ⟨first.toChar :: run,rest,rfl,List.forall_mem_cons.mpr ⟨.inl signed,marks⟩,rewritten.collapse⟩

theorem Rewritten.visible (rewritten : Rewritten text out) :
    out.filter isVisible = text.filter isVisible := by
  have noSign (sign : Sign) : isVisible sign.toChar = false := by cases sign <;> rfl
  induction rewritten with
  | nil => rfl
  | other _ _ ih => rw [List.filter_cons,List.filter_cons,ih]
  | @run run text out sign marks _ _ ih =>
    have nothing : run.filter isVisible = [] := by
      refine List.filter_eq_nil_iff.mpr fun c member => ?_
      rcases marks c member with signed | blank
      · simp [isVisible,signed]
      · simp [isVisible,blank]
    simp [noSign,nothing,ih]

theorem collapse_of_settled (settled : text.IsChain Settles) : collapse text = text := by
  induction text with
  | nil => rfl
  | cons c rest ih =>
    obtain ⟨next,later⟩ := List.isChain_cons.mp settled
    cases signed : isSign c with
    | false => rw [collapse,collapseFrom_none_other signed,← collapse,ih later]
    | true =>
      have visible := fun d head => next d head signed
      obtain ⟨sign,rfl⟩ := isSign_iff.mp signed
      rw [collapse,collapseFrom_none_sign,collapseFrom_some_visible sign visible,ih later]

theorem collapse_normal (text : Text) :
    (∀ out, collapse text = out ↔ Rewritten text out) ∧
    (collapse text).filter isVisible = text.filter isVisible ∧
    (collapse text).IsChain Settles ∧
    collapse (collapse text) = collapse text ∧
    ∀ c, isVisible c = true → ∀ front back,
      collapse (front ++ c :: back) = collapse front ++ c :: collapse back := by
  have settled := isChain_collapseFrom none text
  refine ⟨fun _ => rewritten_iff.symm,(rewritten_iff.mpr rfl).visible,settled,
    collapse_of_settled settled,fun c visible front back => ?_⟩
  obtain ⟨unsigned,unblank⟩ := isVisible_iff.mp visible
  exact collapse_visible unsigned unblank front back

example : collapse "5 - -2 +-+--".toList = "5 +2 -".toList := by decide

end Reckoner.Sign
