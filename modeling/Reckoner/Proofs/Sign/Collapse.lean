import Reckoner.Proofs.Sign.Run

/-!
# Collapsed texts

Collapsing goes over a text from left to right, and what it does to the rest depends only on the
run that is open: `Sign.collapse_split`. In a collapsed text no sign is followed by another one
or by a blank.
-/

namespace Reckoner.Sign

variable {c : Char} {run : Sign} {text : Text}

theorem collapseFrom_some_visible (run : Sign)
    (visible : ∀ c ∈ text.head?, isSign c = false ∧ isBlank c = false) :
    collapseFrom (some run) text = run.toChar :: collapse text := by
  cases text with
  | nil => rfl
  | cons c rest =>
    obtain ⟨signed,blank⟩ := visible c rfl
    rw [collapseFrom_some_other signed blank,collapse,collapseFrom_none_other signed]

/-- After the front of a text a run is open, or the last character of the front is written. -/
theorem collapse_split (front : Text) :
    (∃ out sign, ∀ rest, collapse (front ++ rest) = out ++ collapseFrom (some sign) rest) ∨
      ∃ out, out.getLast? = front.getLast? ∧ ∀ rest, collapse (front ++ rest) = out ++ collapse rest := by
  induction front using List.reverseRecOn with
  | nil => exact .inr ⟨[],rfl,fun _ => rfl⟩
  | append_singleton front c ih =>
    simp only [List.append_assoc,List.singleton_append]
    rcases ih with ⟨out,run,goesOn⟩ | ⟨out,_,goesOn⟩
    · cases signed : isSign c with
      | true =>
        obtain ⟨sign,rfl⟩ := isSign_iff.mp signed
        exact .inl ⟨out,run * sign,fun rest => by rw [goesOn,collapseFrom_some_sign]⟩
      | false =>
        cases blank : isBlank c with
        | true => exact .inl ⟨out,run,fun rest => by rw [goesOn,collapseFrom_some_blank blank]⟩
        | false =>
          refine .inr ⟨out ++ [run.toChar,c],by simp,fun rest => ?_⟩
          rw [goesOn,collapseFrom_some_other signed blank,List.append_assoc]
          rfl
    · cases signed : isSign c with
      | true =>
        obtain ⟨sign,rfl⟩ := isSign_iff.mp signed
        exact .inl ⟨out,sign,fun rest => by rw [goesOn,collapse,collapseFrom_none_sign]⟩
      | false =>
        refine .inr ⟨out ++ [c],by simp,fun rest => ?_⟩
        rw [goesOn,collapse,collapseFrom_none_other signed,List.append_assoc]
        rfl

theorem collapse_visible (signed : isSign c = false) (blank : isBlank c = false) (front back : Text) :
    collapse (front ++ c :: back) = collapse front ++ c :: collapse back := by
  have later : collapse (c :: back) = c :: collapse back := collapseFrom_none_other signed back
  rcases collapse_split front with ⟨out,sign,goesOn⟩ | ⟨out,_,goesOn⟩
  · have ends : collapse front = out ++ [sign.toChar] := by
      simpa only [List.append_nil,collapseFrom] using goesOn []
    rw [goesOn,ends,collapseFrom_some_other signed blank,List.append_assoc]
    rfl
  · have ends : collapse front = out := by
      simpa only [List.append_nil,collapse,collapseFrom] using goesOn []
    rw [goesOn,ends,later]

theorem collapseFrom_some (run : Sign) (text : Text) :
    ∃ sign rest, collapseFrom (some run) text = toChar sign :: rest := by
  induction text generalizing run with
  | nil => exact ⟨run,[],rfl⟩
  | cons c text ih =>
    cases signed : isSign c with
    | true =>
      obtain ⟨sign,rfl⟩ := isSign_iff.mp signed
      rw [collapseFrom_some_sign]
      exact ih (run * sign)
    | false =>
      cases blank : isBlank c with
      | true =>
        rw [collapseFrom_some_blank blank]
        exact ih run
      | false => exact ⟨run,_,collapseFrom_some_other signed blank run text⟩

theorem mem_head?_collapse (head : c ∈ (collapse text).head?) :
    c ∈ text.head? ∨ isSign c = true := by
  cases text with
  | nil => cases head
  | cons d rest =>
    cases signed : isSign d with
    | false =>
      rw [collapse,collapseFrom_none_other signed] at head
      exact .inl head
    | true =>
      obtain ⟨run,rfl⟩ := isSign_iff.mp signed
      obtain ⟨sign,later,writes⟩ := collapseFrom_some run rest
      rw [collapse,collapseFrom_none_sign,writes,List.head?_cons,Option.mem_some_iff] at head
      exact .inr (isSign_iff.mpr ⟨sign,head.symm⟩)

/-- After a sign comes a character that is neither a sign nor blank. -/
def Settles (a b : Char) : Prop := isSign a = true → isSign b = false ∧ isBlank b = false

theorem isChain_cons_other {rest : Text} (signed : isSign c = false) (chain : rest.IsChain Settles) :
    (c :: rest).IsChain Settles := by
  refine List.isChain_cons.mpr ⟨fun _ _ aSign => ?_,chain⟩
  simp [signed] at aSign

theorem isChain_collapseFrom (run : Option Sign) (text : Text) :
    (collapseFrom run text).IsChain Settles := by
  induction text generalizing run with
  | nil => cases run <;> simp [collapseFrom]
  | cons c rest ih =>
    cases signed : isSign c with
    | true =>
      obtain ⟨sign,rfl⟩ := isSign_iff.mp signed
      cases run with
      | none => simpa using ih (some sign)
      | some run => simpa using ih (some (run * sign))
    | false =>
      cases run with
      | none =>
        rw [collapseFrom_none_other signed]
        exact isChain_cons_other signed (ih none)
      | some run =>
        cases blank : isBlank c with
        | true =>
          rw [collapseFrom_some_blank blank]
          exact ih (some run)
        | false =>
          rw [collapseFrom_some_other signed blank]
          exact .cons_cons (fun _ => ⟨signed,blank⟩) (isChain_cons_other signed (ih none))

theorem mem_collapseFrom {run : Option Sign} (member : c ∈ collapseFrom run text) :
    isSign c = true ∨ c ∈ text := by
  induction text generalizing run with
  | nil =>
    cases run with
    | none => cases member
    | some run =>
      obtain rfl := List.mem_singleton.mp member
      exact .inl (isSign_iff.mpr ⟨run,rfl⟩)
  | cons d rest ih =>
    have later {run : Option Sign} (member : c ∈ collapseFrom run rest) :
        isSign c = true ∨ c ∈ d :: rest := (ih member).imp_right (List.mem_cons_of_mem d)
    have first {run : Option Sign} (member : c ∈ d :: collapseFrom run rest) :
        isSign c = true ∨ c ∈ d :: rest := by
      rcases List.mem_cons.mp member with rfl | member
      · exact .inr List.mem_cons_self
      · exact later member
    cases signed : isSign d with
    | true =>
      obtain ⟨sign,rfl⟩ := isSign_iff.mp signed
      cases run with
      | none => exact later (by simpa using member)
      | some run => exact later (by simpa using member)
    | false =>
      cases run with
      | none => exact first (collapseFrom_none_other signed rest ▸ member)
      | some run =>
        cases blank : isBlank d with
        | true => exact later (collapseFrom_some_blank blank run rest ▸ member)
        | false =>
          rw [collapseFrom_some_other signed blank] at member
          rcases List.mem_cons.mp member with rfl | member
          · exact .inl (isSign_iff.mpr ⟨run,rfl⟩)
          · exact first member

end Reckoner.Sign
