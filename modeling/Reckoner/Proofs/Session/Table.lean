import Reckoner.Proofs.Bindings.Names
import Reckoner.Proofs.Session.Assignment

/-!
# The table of a session

What lines leave in the bindings: for each name the value of the last assignment to it that
succeeded, in the order of the first ones, and nothing else changes.
-/

namespace Reckoner.Session

variable {session : Session} {lines front back : List Text} {line name : Text} {n : Int}

def after (session : Session) (lines : List Text) : Session :=
  lines.foldl (fun session line => (session.handle line).2) session

theorem after_append (session : Session) (front back : List Text) :
    session.after (front ++ back) = (session.after front).after back := List.foldl_append

def table (session : Session) (lines : List Text) : Bindings := (session.after lines).bindings

/-- The names of the assignments that succeed, in their order. -/
def assigned (session : Session) : List Text → List Text
  | [] => []
  | line :: rest => (session.assignedName? line).toList ++ (session.handle line).2.assigned rest

theorem table_cons (session : Session) (line : Text) (rest : List Text) :
    session.table (line :: rest) = (session.handle line).2.table rest := rfl

theorem table_concat (session : Session) (lines : List Text) (line : Text) :
    session.table (lines ++ [line]) = ((session.after lines).handle line).2.bindings :=
  congrArg bindings (session.after_append lines [line])

theorem table_append (session : Session) (front back : List Text) :
    session.table (front ++ back) = (session.after front).table back :=
  congrArg bindings (session.after_append front back)

theorem handle_cases (session : Session) (line : Text) :
    (session.assignedName? line = none ∧ (session.handle line).2 = session) ∨
      ∃ name n, session.assignedName? line = some name ∧ session.Assigns line name n ∧
        (session.handle line).2.bindings = ⟨Bindings.assign name n session.bindings.entries⟩ := by
  cases result : session.assignedName? line with
  | none => exact .inl ⟨rfl,handle_of_assignedName?_eq_none result⟩
  | some name =>
    obtain ⟨n,assigns⟩ := assignedName?_eq_some_iff.mp result
    exact .inr ⟨name,n,rfl,assigns,by rw [assigns.handle]⟩

theorem valid_handle (valid : session.bindings.Valid) (line : Text) :
    (session.handle line).2.bindings.Valid := by
  rcases session.handle_cases line with ⟨_,same⟩ | ⟨name,n,_,⟨_,identifier,_,_⟩,binds⟩
  · rwa [same]
  · rw [binds]
    exact valid.assign identifier

theorem valid_table (valid : session.bindings.Valid) (lines : List Text) :
    (session.table lines).Valid := by
  induction lines generalizing session with
  | nil => exact valid
  | cons line rest ih => exact ih (valid_handle valid line)

theorem names_table (valid : session.bindings.Valid) (lines : List Text) :
    (session.table lines).names = (session.bindings.names ++ session.assigned lines).eraseDups := by
  induction lines generalizing session with
  | nil => rw [assigned,List.append_nil,eraseDups_eq_self valid.distinct]; rfl
  | cons line rest ih =>
    have later := ih (valid_handle valid line)
    rw [table_cons,assigned]
    rcases session.handle_cases line with ⟨nothing,same⟩ | ⟨name,n,assigns,_,binds⟩
    · rw [same] at later ⊢
      rw [nothing,later]
      rfl
    · rw [binds,Bindings.names_assign] at later
      rw [assigns,later,Option.toList_some,List.singleton_append]
      by_cases member : name ∈ session.bindings.names
      · rw [if_pos member,eraseDups_append_mem member]
      · rw [if_neg member,List.append_assoc,List.singleton_append]

theorem names_grow (valid : session.bindings.Valid) (lines : List Text) :
    session.bindings.names <+: (session.table lines).names := by
  rw [names_table valid,List.eraseDups_append,eraseDups_eq_self valid.distinct]
  exact List.prefix_append _ _

theorem get?_table_of_not_assigned (never : name ∉ session.assigned lines) :
    (session.table lines).get? name = session.bindings.get? name := by
  induction lines generalizing session with
  | nil => rfl
  | cons line rest ih =>
    rw [assigned,List.mem_append,not_or] at never
    rw [table_cons,ih never.2]
    rcases session.handle_cases line with ⟨_,same⟩ | ⟨other,n,assigns,_,binds⟩
    · rw [same]
    · have apart : name ≠ other := by
        rintro rfl
        exact never.1 (by simp [assigns])
      rw [binds,Bindings.get?,Bindings.lookup_assign,if_neg apart]
      rfl

theorem get?_table_of_assigns (assigns : (session.after front).Assigns line name n)
    (never : name ∉ (session.after (front ++ [line])).assigned back) :
    (session.table (front ++ line :: back)).get? name = some n := by
  rw [List.append_cons,table_append,get?_table_of_not_assigned never,← table,table_concat,assigns.handle]
  rw [Bindings.get?,Bindings.lookup_assign,if_pos rfl]

theorem exists_last_assignment (member : name ∈ session.assigned lines) :
    ∃ front line back n, lines = front ++ line :: back ∧ (session.after front).Assigns line name n ∧
      name ∉ (session.after (front ++ [line])).assigned back := by
  induction lines generalizing session with
  | nil => cases member
  | cons line rest ih =>
    by_cases later : name ∈ (session.handle line).2.assigned rest
    · obtain ⟨front,last,back,n,rfl,assigns,never⟩ := ih later
      exact ⟨line :: front,last,back,n,rfl,assigns,never⟩
    · have first : session.assignedName? line = some name := by
        simpa [assigned,later] using member
      obtain ⟨n,assigns⟩ := assignedName?_eq_some_iff.mp first
      exact ⟨[],line,rest,n,rfl,assigns,later⟩

/-- What holds of the bindings that lines leave, and of what one more line does to them. -/
structure Integrity (session : Session) (lines : List Text) : Prop where
  keys : (session.table lines).Valid
  /-- No entry is removed, and none moves. -/
  kept : session.bindings.names <+: (session.table lines).names
  /-- The names are listed in the order of their first assignments. -/
  listed : (session.table lines).names =
    (session.bindings.names ++ session.assigned lines).eraseDups
  /-- A name that is not assigned keeps the value that it has from the start. -/
  initial : ∀ name, name ∉ session.assigned lines →
    (session.table lines).get? name = session.bindings.get? name
  /-- Any other name has a last assignment. -/
  traced : ∀ name ∈ session.assigned lines, ∃ front line back n, lines = front ++ line :: back ∧
    (session.after front).Assigns line name n ∧
    name ∉ (session.after (front ++ [line])).assigned back
  /-- It has the value that its last assignment had at that moment. -/
  last : ∀ front line back name n, lines = front ++ line :: back →
    (session.after front).Assigns line name n →
    name ∉ (session.after (front ++ [line])).assigned back →
    (session.table lines).get? name = some n
  /-- An assignment succeeds if it assigns a value. -/
  succeeds : ∀ line name, (session.after lines).assignedName? line = some name ↔
    ∃ n, (session.after lines).Assigns line name n
  /-- It changes the entry of its name only. -/
  changed : ∀ line name n, (session.after lines).Assigns line name n →
    Bindings.Binds name n (session.table lines).entries (session.table (lines ++ [line])).entries
  /-- Every other line leaves the bindings as they are. -/
  unchanged : ∀ line, (session.after lines).assignedName? line = none →
    session.table (lines ++ [line]) = session.table lines

/-- Whatever lines a session handles, its bindings tell the assignments that succeeded. -/
theorem table_integrity {entries : List (Text × Int)}
    (made : Bindings.ofList entries = .ok session.bindings) (lines : List Text) :
    session.Integrity lines := by
  have valid := Bindings.valid_of_ofList made
  refine ⟨valid_table valid lines,names_grow valid lines,names_table valid lines,?_,?_,?_,?_,?_,?_⟩
  · exact fun _ => get?_table_of_not_assigned
  · exact fun _ => exists_last_assignment
  · rintro front line back name n rfl
    exact get?_table_of_assigns
  · exact fun _ _ => assignedName?_eq_some_iff
  · intro line name n assigns
    rw [table_concat,assigns.handle]
    exact Bindings.binds_assign name n _
  · intro line nothing
    rw [table_concat,handle_of_assignedName?_eq_none nothing]
    rfl

theorem table_integrity_of_reassignments :
    Bindings.ofList [("b".toList,2),("a".toList,1),("b".toList,3)] =
        .ok ⟨[("b".toList,3),("a".toList,1)]⟩ ∧
      Integrity { bindings := ⟨[("b".toList,3),("a".toList,1)]⟩ }
        ["c = -a".toList,"a = b".toList,"b = 1 + 1".toList,"b = 4".toList,"a + d".toList] := by
  have made : Bindings.ofList [("b".toList,2),("a".toList,1),("b".toList,3)] =
      .ok ⟨[("b".toList,3),("a".toList,1)]⟩ := by decide
  exact ⟨made,table_integrity made _⟩

end Reckoner.Session
