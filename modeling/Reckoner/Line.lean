import Reckoner.Text

/-!
# Lines of input

What a line is, told from its outer form alone: a line of blanks, a command behind a
slash, an assignment if there is an equals sign, an expression otherwise.
-/

namespace Reckoner

inductive Line where
  | blank
  | command (text : Text)
  | assignment (name value : Text)
  | expression (text : Text)
  deriving DecidableEq, Repr

namespace Line

/-- Blanks around a line, a name or a value do not count; the first equals sign divides an
assignment. -/
def ofText (text : Text) : Line :=
  match text.strip with
  | [] => blank
  | first :: rest =>
    if first = '/' then command (first :: rest)
    else if (first :: rest).contains '=' then
      let parts := Text.cut '=' (first :: rest)
      assignment parts.1.strip parts.2.strip
    else expression (first :: rest)

theorem ofText_eq {text : Text} (visible : text.strip ≠ [])
    (noCommand : ∀ c ∈ text.strip.head?, c ≠ '/') : ofText text =
      if '=' ∈ text.strip then
        .assignment (Text.cut '=' text.strip).1.strip (Text.cut '=' text.strip).2.strip
      else .expression text.strip := by
  obtain ⟨first,rest,stripped⟩ := List.exists_cons_of_ne_nil visible
  rw [stripped] at noCommand ⊢
  simp [ofText,stripped,noCommand first rfl]

theorem ofText_assignment {front back : Text} (apart : ∀ c ∈ front, c ≠ '=')
    (noCommand : ∀ c ∈ (front ++ '=' :: back).strip.head?, c ≠ '/') :
    ofText (front ++ '=' :: back) = .assignment front.strip back.strip := by
  obtain ⟨gap,name,rfl,before,first⟩ := Text.split_left isBlank front
  obtain ⟨value,trail,rfl,after,last⟩ := Text.split_right isBlank back
  have starts : ∀ c ∈ (name ++ '=' :: value).head?, isBlank c = false := by
    cases name with
    | nil => rintro c ⟨⟩; rfl
    | cons d name => exact first
  have ends : ∀ c ∈ (name ++ '=' :: value).getLast?, isBlank c = false := by
    rw [List.getLast?_append,List.getLast?_cons]
    rintro c ⟨⟩
    cases later : value.getLast? with
    | none => rfl
    | some d => exact last d later
  have stripped : (gap ++ name ++ '=' :: (value ++ trail)).strip = name ++ '=' :: value := by
    have parts : gap ++ name ++ '=' :: (value ++ trail) =
        gap ++ (name ++ '=' :: value ++ trail) := by simp
    rw [parts,Text.strip,Text.trim_append_left before,Text.trim_append_right after,
      Text.trim_eq_self starts ends]
  have nameApart : ∀ c ∈ name, c ≠ '=' := fun c member => apart c (List.mem_append_right _ member)
  rw [ofText_eq (by rw [stripped]; simp) noCommand,stripped,if_pos (by simp),
    Text.cut_append nameApart]
  rw [Text.strip,Text.strip,Text.strip,Text.strip,Text.trim_append_left before,
    Text.trim_append_right after]

theorem ofText_expression {text : Text} (visible : ∃ c ∈ text, isBlank c = false)
    (plain : ∀ c ∈ text, c ≠ '/' ∧ c ≠ '=') : ofText text = .expression text.strip := by
  obtain ⟨c,member,visible⟩ := visible
  have inside : ∀ c ∈ text.strip, c ≠ '/' ∧ c ≠ '=' :=
    fun c member => plain c (Text.mem_of_mem_trim member)
  have noCommand : ∀ c ∈ text.strip.head?, c ≠ '/' :=
    fun c head => (inside c (List.mem_of_mem_head? head)).1
  have noEquals : '=' ∉ text.strip := fun member => (inside '=' member).2 rfl
  rw [ofText_eq (Text.trim_ne_nil member visible) noCommand,if_neg noEquals]

end Line

inductive Command where
  | help
  | exit
  deriving DecidableEq, Repr

def Command.ofText? (text : Text) : Option Command :=
  if text = "/help".toList then some help
  else if text = "/exit".toList then some exit
  else none

end Reckoner
