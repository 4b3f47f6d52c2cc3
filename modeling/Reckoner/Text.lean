import Reckoner.Text.Blank

/-!
# Texts

A text is the list of its characters, so that a claim about what is read or written is
a claim about a list.
-/

namespace Reckoner

abbrev Text := List Char

namespace Text

/-- Drops the characters of a class at both ends. -/
def trim (outer : Char → Bool) (text : Text) : Text :=
  ((text.dropWhile outer).reverse.dropWhile outer).reverse

def strip (text : Text) : Text := text.trim isBlank

def spaced (words : List Text) : Text := List.intercalate [' '] words

/-- Splits at the first occurrence of a character, which neither part keeps. -/
def cut (separator : Char) (text : Text) : Text × Text :=
  (text.takeWhile (· != separator), (text.dropWhile (· != separator)).drop 1)

variable {outer : Char → Bool} {gap trail text : Text}

theorem split_left (outer : Char → Bool) (text : Text) :
    ∃ gap rest, text = gap ++ rest ∧ (∀ c ∈ gap, outer c = true) ∧
      ∀ c ∈ rest.head?, outer c = false := by
  refine ⟨text.takeWhile outer,text.dropWhile outer,List.takeWhile_append_dropWhile.symm,?_,?_⟩
  · exact List.all_eq_true.mp List.all_takeWhile
  · intro c head
    have first := List.head?_dropWhile_not outer text
    rw [Option.mem_def.mp head] at first
    simpa using first

theorem split_right (outer : Char → Bool) (text : Text) :
    ∃ rest trail, text = rest ++ trail ∧ (∀ c ∈ trail, outer c = true) ∧
      ∀ c ∈ rest.getLast?, outer c = false := by
  obtain ⟨gap,rest,split,inside,first⟩ := split_left outer text.reverse
  refine ⟨rest.reverse,gap.reverse,?_,by simpa using inside,by simpa using first⟩
  rw [← List.reverse_append,← split,List.reverse_reverse]

theorem trim_append_left (before : ∀ c ∈ gap, outer c = true) (text : Text) :
    trim outer (gap ++ text) = text.trim outer := by
  rw [trim,List.dropWhile_append_of_pos before,trim]

theorem trim_append_right (after : ∀ c ∈ trail, outer c = true) (text : Text) :
    trim outer (text ++ trail) = text.trim outer := by
  have reversed : ∀ c ∈ trail.reverse, outer c = true :=
    fun c member => after c (List.mem_reverse.mp member)
  have nothing : trail.dropWhile outer = [] := by
    rw [← List.append_nil trail,List.dropWhile_append_of_pos after]
    rfl
  rw [trim,List.dropWhile_append,trim]
  split
  next none => simp [List.isEmpty_iff.mp none,nothing]
  next => rw [List.reverse_append,List.dropWhile_append_of_pos reversed]

theorem trim_eq_self (starts : ∀ c ∈ text.head?, outer c = false)
    (ends : ∀ c ∈ text.getLast?, outer c = false) : text.trim outer = text := by
  have keep (part : Text) (first : ∀ c ∈ part.head?, outer c = false) :
      part.dropWhile outer = part := by
    cases part with
    | nil => rfl
    | cons c rest => simp [first c rfl]
  have reversed : ∀ c ∈ text.reverse.head?, outer c = false := by simpa using ends
  rw [trim,keep text starts,keep _ reversed,List.reverse_reverse]

theorem trim_split (outer : Char → Bool) (text : Text) :
    ∃ gap trail, text = gap ++ (text.trim outer ++ trail) ∧ (∀ c ∈ gap, outer c = true) ∧
      ∀ c ∈ trail, outer c = true := by
  obtain ⟨gap,rest,split,before,first⟩ := split_left outer text
  obtain ⟨core,trail,parts,after,last⟩ := split_right outer rest
  have starts : ∀ c ∈ core.head?, outer c = false := by
    intro c head
    apply first
    simp [parts,Option.mem_def.mp head]
  refine ⟨gap,trail,?_,before,after⟩
  rw [split,trim_append_left before,parts,trim_append_right after,trim_eq_self starts last]

theorem mem_of_mem_trim {c : Char} (member : c ∈ text.trim outer) : c ∈ text := by
  obtain ⟨gap,trail,split,_⟩ := trim_split outer text
  rw [split]
  exact List.mem_append_right _ (List.mem_append_left _ member)

theorem trim_ne_nil {c : Char} (member : c ∈ text) (visible : outer c = false) :
    text.trim outer ≠ [] := by
  obtain ⟨gap,trail,split,before,after⟩ := trim_split outer text
  intro nothing
  rw [split,nothing,List.nil_append] at member
  have inside := (List.mem_append.mp member).elim (before c) (after c)
  simp [visible] at inside

theorem head?_trim {c : Char} (visible : outer c = false) (rest : Text) :
    (trim outer (c :: rest)).head? = some c := by
  obtain ⟨core,trail,split,after,last⟩ := split_right outer (c :: rest)
  cases core with
  | nil =>
    have inside := after c (by rw [← List.nil_append trail,← split]; exact List.mem_cons_self)
    simp [visible] at inside
  | cons d core =>
    obtain rfl : c = d := (List.cons.inj split).1
    have starts : ∀ e ∈ (c :: core).head?, outer e = false := by rintro e ⟨⟩; exact visible
    rw [split,trim_append_right after,trim_eq_self starts last,List.head?_cons]

theorem cut_append {separator : Char} {front : Text} (apart : ∀ c ∈ front, c ≠ separator)
    (back : Text) : cut separator (front ++ separator :: back) = (front,back) := by
  have other : ∀ c ∈ front, (c != separator) = true := fun c member => by simp [apart c member]
  simp [cut,List.takeWhile_append_of_pos other,List.dropWhile_append_of_pos other]

end Text
end Reckoner
