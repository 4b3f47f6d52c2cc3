import Reckoner.Failure
import Reckoner.Grammar
import Reckoner.Numeral

/-!
# Bindings

Names and the integers bound to them, in the order in which the names were first bound.
A later binding of a name replaces its value in place; nothing is ever removed.
-/

namespace Reckoner

structure Bindings where
  entries : List (Text × Int) := []
  deriving DecidableEq, Repr

namespace Bindings

def empty : Bindings := {}

def get? (bindings : Bindings) (name : Text) : Option Int := bindings.entries.lookup name

def names (bindings : Bindings) : List Text := bindings.entries.map Prod.fst

/-- Replaces the value of a name, or adds the name at the end. -/
def assign (name : Text) (value : Int) : List (Text × Int) → List (Text × Int)
  | [] => [(name, value)]
  | entry :: rest =>
    if entry.1 = name then (name, value) :: rest else entry :: assign name value rest

def set (bindings : Bindings) (name : Text) (value : Int) : Except Failure Bindings :=
  if Grammar.isIdentifier name then .ok ⟨assign name value bindings.entries⟩
  else .error .invalidIdentifier

/-- Binds each name in turn; of a repeated name the last value counts. -/
def ofList (entries : List (Text × Int)) : Except Failure Bindings :=
  entries.foldlM (fun bindings entry => bindings.set entry.1 entry.2) empty

/-- The bindings as one line of text, unless some value is too long to print. -/
def print? (limit : DigitLimit) (bindings : Bindings) : Option Text := do
  let items ← bindings.entries.mapM fun entry => do
    return "'".toList ++ entry.1 ++ "': ".toList ++ (← Numeral.print? limit entry.2)
  return "Bindings(\x7b".toList ++ List.intercalate ", ".toList items ++ "\x7d)".toList

@[simp] theorem get?_empty (name : Text) : empty.get? name = none := rfl

theorem lookup_cons (other : Text) (entry : Text × Int) (rest : List (Text × Int)) :
    (entry :: rest).lookup other = if other = entry.1 then some entry.2 else rest.lookup other := by
  obtain ⟨name, value⟩ := entry
  rw [List.lookup_cons]
  by_cases h : other = name
  · simp [h]
  · simp [h,beq_eq_false_iff_ne.mpr h]

theorem lookup_assign (name other : Text) (value : Int) (entries : List (Text × Int)) :
    (assign name value entries).lookup other =
      if other = name then some value else entries.lookup other := by
  induction entries with
  | nil => simp [assign,lookup_cons]
  | cons entry rest ih =>
    unfold assign
    split
    next same => subst same; simp only [lookup_cons]; split <;> rfl
    next apart =>
      simp only [lookup_cons,ih]
      by_cases h : other = entry.1
      · subst h; simp [apart]
      · simp [h]

theorem get?_set {bindings next : Bindings} {name : Text} {value : Int}
    (h : bindings.set name value = .ok next) (other : Text) :
    next.get? other = if other = name then some value else bindings.get? other := by
  unfold set at h
  split at h
  · cases h; exact lookup_assign name other value bindings.entries
  · cases h

end Bindings
end Reckoner
