import Mathlib.Data.List.Basic
import Reckoner.Bindings

/-!
# The names of bindings

Binding a name replaces the value of its entry or adds an entry at the end. So no entry is lost,
no name occurs twice, and names stand in the order in which they were first bound.
-/

namespace Reckoner

theorem Grammar.isIdentifier_iff {name : Text} :
    isIdentifier name = true ↔ name ≠ [] ∧ ∀ c ∈ name, c.isAlpha = true := by
  simp [isIdentifier]

theorem eraseDups_eq_self {α : Type} [BEq α] [LawfulBEq α] {items : List α}
    (distinct : items.Nodup) : items.eraseDups = items := by
  induction items with
  | nil => rfl
  | cons item rest ih =>
    obtain ⟨fresh,distinct⟩ := List.nodup_cons.mp distinct
    have same : rest.filter (fun other => !other == item) = rest := by
      apply List.filter_eq_self.mpr
      intro other member
      have apart : other ≠ item := fun same => fresh (same ▸ member)
      simpa using apart
    rw [List.eraseDups_cons,same,ih distinct]

theorem eraseDups_append_mem {α : Type} [BEq α] [LawfulBEq α] {items rest : List α} {item : α}
    (member : item ∈ items) : (items ++ item :: rest).eraseDups = (items ++ rest).eraseDups := by
  rw [List.eraseDups_append,List.eraseDups_append]
  simp [List.removeAll,member]

namespace Bindings

/-- One entry, that of the name, is replaced in its place or added at the end. -/
inductive Binds (name : Text) (n : Int) : List (Text × Int) → List (Text × Int) → Prop
  | replace (front : List (Text × Int)) (old : Int) (back : List (Text × Int)) :
      Binds name n (front ++ (name,old) :: back) (front ++ (name,n) :: back)
  | add {entries : List (Text × Int)} (fresh : name ∉ entries.map Prod.fst) :
      Binds name n entries (entries ++ [(name,n)])

variable {bindings next : Bindings} {entries : List (Text × Int)} {name : Text} {n : Int}

theorem binds_assign (name : Text) (n : Int) (entries : List (Text × Int)) :
    Binds name n entries (assign name n entries) := by
  induction entries with
  | nil => exact .add (by simp)
  | cons entry rest ih =>
    rw [assign]
    split
    next same =>
      obtain ⟨_,old⟩ := entry
      subst same
      exact .replace [] old rest
    next apart =>
      generalize assign name n rest = later at ih
      cases ih with
      | replace front old back => exact .replace (entry :: front) old back
      | add fresh =>
        have fresh : name ∉ (entry :: rest).map Prod.fst := by simpa [Ne.symm apart] using fresh
        exact .add fresh

theorem eq_or_mem_of_mem_assign {entry : Text × Int} (member : entry ∈ assign name n entries) :
    entry = (name,n) ∨ entry ∈ entries := by
  have binds := binds_assign name n entries
  generalize assign name n entries = later at binds member
  cases binds with
  | replace front old back =>
    rcases List.mem_append.mp member with before | after
    · exact .inr (List.mem_append_left _ before)
    · rcases List.mem_cons.mp after with same | after
      · exact .inl same
      · exact .inr (List.mem_append_right _ (List.mem_cons_of_mem _ after))
  | add =>
    rcases List.mem_append.mp member with before | last
    · exact .inr before
    · exact .inl (List.mem_singleton.mp last)

theorem names_assign (bindings : Bindings) (name : Text) (n : Int) :
    names ⟨assign name n bindings.entries⟩ =
      if name ∈ bindings.names then bindings.names else bindings.names ++ [name] := by
  have binds := binds_assign name n bindings.entries
  rw [names,names]
  generalize bindings.entries = entries at binds
  generalize assign name n entries = later at binds
  cases binds with
  | replace => simp
  | add fresh => rw [if_neg fresh,List.map_append,List.map_singleton]

/-- Every name is a non-empty run of letters and occurs once. -/
structure Valid (bindings : Bindings) : Prop where
  distinct : bindings.names.Nodup
  letters : ∀ name ∈ bindings.names, name ≠ [] ∧ ∀ c ∈ name, c.isAlpha = true

theorem Valid.assign (valid : bindings.Valid) (identifier : Grammar.isIdentifier name = true) :
    Valid ⟨Bindings.assign name n bindings.entries⟩ := by
  have letters := Grammar.isIdentifier_iff.mp identifier
  by_cases member : name ∈ bindings.names
  · constructor <;> rw [names_assign,if_pos member]
    · exact valid.distinct
    · exact valid.letters
  · constructor <;> rw [names_assign,if_neg member]
    · apply (List.perm_append_singleton name _).nodup_iff.mpr
      exact List.nodup_cons.mpr ⟨member,valid.distinct⟩
    · exact List.forall_mem_append.mpr ⟨valid.letters,List.forall_mem_singleton.mpr letters⟩

theorem Valid.set (valid : bindings.Valid) (sets : bindings.set name n = .ok next) : next.Valid := by
  rw [Bindings.set] at sets
  split at sets
  next identifier =>
    cases sets
    exact valid.assign identifier
  next => cases sets

theorem Valid.foldlM (valid : bindings.Valid)
    (sets : entries.foldlM (fun bindings entry => bindings.set entry.1 entry.2) bindings = .ok next) :
    next.Valid := by
  induction entries generalizing bindings with
  | nil =>
    cases sets
    exact valid
  | cons entry rest ih =>
    rw [List.foldlM_cons] at sets
    obtain ⟨middle,first,later⟩ := bind_eq_ok_iff.mp sets
    exact ih (valid.set first) later

theorem valid_of_ofList (made : ofList entries = .ok bindings) : bindings.Valid :=
  Valid.foldlM ⟨by simp [empty,names],by simp [empty,names]⟩ made

end Bindings
end Reckoner
