import Reckoner.Proofs.Token.Names
import Reckoner.Proofs.Token.Placement

/-!
# Runs of letters

A text is a row of maximal runs of letters with other characters between them. Its names are these
runs: `Text.mem_names_iff`. Another text in the place of a name leaves everything around it alone.
-/

namespace Reckoner.Text

open Token (MaximalRun)

variable {c : Char} {name word replacement text rest : Text}

/-- Every text is built from its end, by characters that are no letters and by runs of letters that
no letter follows. -/
theorem run_induction {motive : Text → Prop} (nil : motive [])
    (other : ∀ c rest, c.isAlpha = false → motive rest → motive (c :: rest))
    (word : ∀ word rest, word ≠ [] → (∀ c ∈ word, c.isAlpha = true) →
      (∀ c ∈ rest.head?, c.isAlpha = false) → motive rest → motive (word ++ rest))
    (text : Text) : motive text := by
  match text with
  | [] => exact nil
  | c :: rest =>
    cases letter : c.isAlpha with
    | false => exact other c rest letter (run_induction nil other word rest)
    | true =>
      obtain ⟨run,later,split,letters,ends⟩ := split_left Char.isAlpha rest
      have shorter : later.length ≤ rest.length := by simp [split]
      have built := run_induction nil other word later
      subst split
      apply word (c :: run) later (List.cons_ne_nil c run) _ ends built
      exact List.forall_mem_cons.mpr ⟨letter,letters⟩
termination_by text.length
decreasing_by all_goals simp only [List.length_cons]; omega

/-- The name stands in the text as a maximal run of letters. -/
def Mentions (text name : Text) : Prop :=
  ∃ front back, text = front ++ (name ++ back) ∧ MaximalRun Char.isAlpha front name back

theorem mentions_cons (other : c.isAlpha = false) : Mentions (c :: rest) name ↔ rest.Mentions name := by
  constructor
  · rintro ⟨front,back,split,maximal⟩
    cases front with
    | nil =>
      obtain ⟨d,later,rfl⟩ := List.exists_cons_of_ne_nil maximal.someChar
      obtain rfl : c = d := (List.cons.inj split).1
      simp [maximal.all c List.mem_cons_self] at other
    | cons d front =>
      refine ⟨front,back,(List.cons.inj split).2,{ maximal with starts := fun e last => ?_ }⟩
      apply maximal.starts
      simp [List.getLast?_cons,Option.mem_def.mp last]
  · rintro ⟨front,back,rfl,maximal⟩
    refine ⟨c :: front,back,rfl,{ maximal with starts := fun e last => ?_ }⟩
    cases before : front.getLast? with
    | none =>
      obtain rfl : c = e := by simpa [List.getLast?_cons,before] using last
      exact other
    | some d =>
      obtain rfl : d = e := by simpa [List.getLast?_cons,before] using last
      exact maximal.starts d before

theorem takeWhile_word (letters : ∀ c ∈ word, c.isAlpha = true)
    (ends : ∀ c ∈ rest.head?, c.isAlpha = false) : (word ++ rest).takeWhile Char.isAlpha = word := by
  have nothing : rest.takeWhile Char.isAlpha = [] := by
    cases rest with
    | nil => rfl
    | cons c rest => simp [ends c rfl]
  rw [List.takeWhile_append_of_pos letters,nothing,List.append_nil]

theorem mentions_word (someLetter : word ≠ []) (letters : ∀ c ∈ word, c.isAlpha = true)
    (ends : ∀ c ∈ rest.head?, c.isAlpha = false) :
    Mentions (word ++ rest) name ↔ name = word ∨ rest.Mentions name := by
  constructor
  · rintro ⟨front,back,split,maximal⟩
    rcases List.append_eq_append_iff.mp split with ⟨later,rfl,inner⟩ | ⟨later,inside,same⟩
    · refine .inr ⟨later,back,inner,{ maximal with starts := fun c last => ?_ }⟩
      apply maximal.starts
      simp [List.getLast?_append,Option.mem_def.mp last]
    · obtain rfl : front = [] := by
        by_contra before
        have last := List.getLast?_eq_some_getLast before
        have letter := letters _ (inside ▸ List.mem_append_left later (List.getLast_mem before))
        simp [maximal.starts _ last] at letter
      obtain rfl : word = later := inside
      have runs := congrArg (List.takeWhile Char.isAlpha) same
      rw [takeWhile_word maximal.all maximal.ends,takeWhile_word letters ends] at runs
      exact .inl runs
  · rintro (rfl | ⟨front,back,rfl,maximal⟩)
    · exact ⟨[],rest,rfl,someLetter,letters,by simp,ends⟩
    · refine ⟨word ++ front,back,by simp,{ maximal with starts := fun c last => ?_ }⟩
      cases front with
      | nil =>
        obtain ⟨d,later,rfl⟩ := List.exists_cons_of_ne_nil maximal.someChar
        have other := ends d rfl
        simp [maximal.all d List.mem_cons_self] at other
      | cons d front =>
        apply maximal.starts
        rwa [List.getLast?_append_of_ne_nil _ (List.cons_ne_nil d front)] at last

theorem mem_names_iff : name ∈ text.names ↔ text.Mentions name := by
  induction text using run_induction with
  | nil =>
    refine iff_of_false (by simp [names]) ?_
    rintro ⟨front,back,split,maximal⟩
    have nothing : name ++ back = [] := (List.append_eq_nil_iff.mp split.symm).2
    exact maximal.someChar (List.append_eq_nil_iff.mp nothing).1
  | other c rest other ih => rw [names_cons other,mentions_cons other,ih]
  | word word rest someLetter letters ends ih =>
    rw [names_word someLetter letters ends,mentions_word someLetter letters ends,List.mem_cons,ih]

/-- The text with another one in the place of a name, wherever the name is a maximal run. -/
def substitute (text name replacement : Text) : Text :=
  (text.splitBy fun a b => a.isAlpha && b.isAlpha).flatMap fun run =>
    if run = name then replacement else run

@[simp] theorem substitute_nil (name replacement : Text) : substitute [] name replacement = [] := rfl

theorem substitute_cons (letters : ∀ c ∈ name, c.isAlpha = true) (other : c.isAlpha = false) :
    substitute (c :: rest) name replacement = c :: rest.substitute name replacement := by
  have parted : ∀ a ∈ [c].getLast?, ∀ b ∈ rest.head?, (a.isAlpha && b.isAlpha) = false := by
    rintro a ⟨⟩ b _
    simp [other]
  have apart : [c] ≠ name := by
    rintro rfl
    simp [letters c List.mem_cons_self] at other
  rw [← List.singleton_append,substitute,List.splitBy_append parted,List.flatMap_append,
    List.splitBy_of_isChain (List.cons_ne_nil c []) (.singleton c)]
  simp [apart,substitute]

theorem substitute_word (someLetter : word ≠ []) (inside : ∀ c ∈ word, c.isAlpha = true)
    (ends : ∀ c ∈ rest.head?, c.isAlpha = false) : substitute (word ++ rest) name replacement =
      (if word = name then replacement else word) ++ rest.substitute name replacement := by
  have parted : ∀ a ∈ word.getLast?, ∀ b ∈ rest.head?, (a.isAlpha && b.isAlpha) = false := by
    intro a _ b head
    simp [ends b head]
  have chain : word.IsChain fun a b => (a.isAlpha && b.isAlpha) = true :=
    (List.pairwise_of_forall_mem_list fun a one b two => by simp [inside a one,inside b two]).isChain
  rw [substitute,List.splitBy_append parted,List.flatMap_append,
    List.splitBy_of_isChain someLetter chain]
  simp [substitute]

theorem substitute_append (letters : ∀ c ∈ name, c.isAlpha = true) {front : Text}
    (others : ∀ c ∈ front, c.isAlpha = false) :
    substitute (front ++ rest) name replacement = front ++ rest.substitute name replacement := by
  induction front with
  | nil => rfl
  | cons c front ih =>
    obtain ⟨here,later⟩ := List.forall_mem_cons.mp others
    rw [List.cons_append,substitute_cons letters here,ih later,List.cons_append]

theorem mem_substitute (member : c ∈ text.substitute name replacement) :
    c ∈ text ∨ c ∈ replacement := by
  obtain ⟨run,runs,inside⟩ := List.mem_flatMap.mp member
  split at inside
  · exact .inr inside
  · rw [← List.flatten_splitBy (fun a b => a.isAlpha && b.isAlpha) text]
    exact .inl (List.mem_flatten.mpr ⟨run,runs,inside⟩)

end Reckoner.Text
