import Reckoner.Proofs.Session.Transcript

/-!
# Runs in turn

A run handles its lines up to the first that ends the session. So a run over two lists of lines is
a run over the first and then one over the second, from the session that the first run left, unless
the first list ends the session and the second is not heard: `Session.runs_compose`.
-/

namespace Reckoner.Session

open Line

variable {session : Session} {lines front back : List Text}

/-- The lines of a run that are handled, and the replies to them. -/
structure Handles (session : Session) (lines handled : List Text) (replies : List Reply) : Prop where
  /-- Lines are handled from the first on, and none is passed over. -/
  front : handled <+: lines
  /-- None is handled after a line that ends the session. -/
  going : ∀ line ∈ handled.dropLast, line.strip ≠ "/exit".toList
  /-- Unless there is such a line, all are handled. -/
  stops : handled = lines ∨ ∃ line ∈ handled.getLast?, line.strip = "/exit".toList
  answered : replies.length = handled.length
  /-- It is the reply of the session that the lines before it leave. -/
  replied : ∀ before line later, handled = before ++ line :: later →
    replies[before.length]? = some ((session.after before).handle line).1

theorem heard_cases (lines : List Text) :
    (heard lines = lines ∧ ∀ line ∈ lines, isLast line = false) ∨
      ∃ front last rest, lines = front ++ last :: rest ∧ heard lines = front ++ [last] ∧
        (∀ line ∈ front, isLast line = false) ∧ isLast last = true := by
  induction lines with
  | nil => exact .inl ⟨rfl,by simp⟩
  | cons line lines ih =>
    rw [heard_cons]
    cases here : isLast line with
    | true => exact .inr ⟨[],line,lines,rfl,rfl,by simp,here⟩
    | false =>
      rcases ih with ⟨whole,going⟩ | ⟨front,last,rest,rfl,stops,going,ends⟩
      · exact .inl ⟨by simp [whole],List.forall_mem_cons.mpr ⟨here,going⟩⟩
      · exact .inr ⟨line :: front,last,rest,rfl,by simp [stops],List.forall_mem_cons.mpr ⟨here,going⟩,ends⟩

theorem answers_append (session : Session) (front back : List Text) :
    session.answers (front ++ back) = session.answers front ++ (session.after front).answers back := by
  induction front generalizing session with
  | nil => rfl
  | cons line front ih =>
    rw [List.cons_append,answers,answers,ih]
    rfl

theorem handles_heard (session : Session) (lines : List Text) :
    session.Handles lines (heard lines) (session.run lines).replies := by
  have replies : (session.run lines).replies = (session.answers (heard lines)).map Prod.fst := by
    rw [run_eq]
  have answered : (session.run lines).replies.length = (heard lines).length := by
    rw [replies,List.length_map,length_answers]
  have replied : ∀ before line later, heard lines = before ++ line :: later →
      (session.run lines).replies[before.length]? = some ((session.after before).handle line).1 := by
    intro before line later split
    have here : before.length = (session.answers before).length := (session.length_answers before).symm
    rw [replies,split,answers_append,here]
    simp [answers]
  rcases heard_cases lines with ⟨whole,going⟩ | ⟨front,last,rest,rfl,stops,going,ends⟩
  · rw [whole] at answered replied ⊢
    refine ⟨List.prefix_rfl,fun line member => ?_,.inl rfl,answered,replied⟩
    exact of_decide_eq_false (going line (List.mem_of_mem_dropLast member))
  · rw [stops] at answered replied ⊢
    refine ⟨⟨rest,by simp⟩,fun line member => ?_,.inr ⟨last,by simp,of_decide_eq_true ends⟩,
      answered,replied⟩
    rw [List.dropLast_concat] at member
    exact of_decide_eq_false (going line member)

theorem run_append_of_last (last : ∃ line ∈ front, isLast line = true) (back : List Text) :
    session.run (front ++ back) = session.run front := by
  induction front generalizing session with
  | nil => simp at last
  | cons line front ih =>
    rw [List.cons_append,run,run,handle_terminate]
    split
    next => rfl
    next going =>
      have later : ∃ line ∈ front, isLast line = true := by simpa [going] using last
      rw [ih later]

theorem run_append_of_going (going : ∀ line ∈ front, isLast line = false) (back : List Text) :
    session.run (front ++ back) =
      ⟨(session.run front).replies ++ ((session.run front).session.run back).replies,
        ((session.run front).session.run back).session⟩ := by
  induction front generalizing session with
  | nil => rfl
  | cons line front ih =>
    obtain ⟨here,later⟩ := List.forall_mem_cons.mp going
    have goesOn : ¬ (session.handle line).1.terminate = true := by simp [handle_terminate,here]
    simp only [List.cons_append,run,if_neg goesOn,ih later]

theorem runs_compose (session : Session) (front back : List Text) :
    ((∀ line ∈ front, line.strip ≠ "/exit".toList) →
      let first := session.run front
      let second := first.session.run back
      let whole := session.run (front ++ back)
      whole.echoed = first.echoed ++ second.echoed ∧
        whole.failures = first.failures + second.failures ∧ whole.session = second.session) ∧
    ((∃ line ∈ front, line.strip = "/exit".toList) → session.run (front ++ back) = session.run front) ∧
    ∀ lines, ∃ handled replies, session.Handles lines handled replies ∧
      (session.run lines).failures = replies.countP (fun reply => !reply.ok) ∧
      (session.run lines).echoed = replies.filterMap Reply.output ∧
      (session.run lines).session = session.after handled := by
  refine ⟨?_,?_,fun lines => ?_⟩
  · intro going first second whole
    have parts : session.run (front ++ back) = _ :=
      run_append_of_going (fun line member => decide_eq_false (going line member)) back
    refine ⟨?_,?_,by simp only [whole,parts]; rfl⟩
    · simp only [whole,Transcript.echoed,parts,List.filterMap_append]
      rfl
    · simp only [whole,Transcript.failures,parts,List.countP_append]
      rfl
  · rintro ⟨line,member,ends⟩
    exact run_append_of_last ⟨line,member,decide_eq_true ends⟩ back
  · exact ⟨heard lines,(session.run lines).replies,session.handles_heard lines,rfl,rfl,by rw [run_eq]⟩

example : let lines := ["n = 2".toList,"m".toList,"/exit now".toList," /exit\t".toList,"n".toList]
    (run {} lines).echoed = ["Unknown variable".toList,"Unknown command".toList,"Bye!".toList] ∧
      (run {} lines).failures = 2 := by decide +kernel

end Reckoner.Session
