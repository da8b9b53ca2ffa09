/-!
# Bindings

Names that stand for values: the variables of a calculator, in the order of their first assignment.
-/

namespace Reckoner

/-- Names with their values, in the order in which the names were first given one. -/
structure Bindings where
  /-- The names and their values. -/
  entries : List (String × Float)

namespace Bindings

/-- No bindings. -/
def empty : Bindings := ⟨[]⟩

/-- The value of a name. -/
def get? (bindings : Bindings) (name : String) : Option Float :=
  bindings.entries.lookup name

/-- The entries with a name set to a value: in its place if the name is there, else at the end. -/
def setEntry (name : String) (value : Float) : List (String × Float) → List (String × Float)
  | [] => [(name, value)]
  | entry :: entries =>
    if entry.1 == name then (name, value) :: entries else entry :: setEntry name value entries

/-- The bindings with a name set to a value. -/
def set (bindings : Bindings) (name : String) (value : Float) : Bindings :=
  ⟨setEntry name value bindings.entries⟩

theorem lookup_setEntry (name other : String) (value : Float) (entries : List (String × Float)) :
    (setEntry name value entries).lookup other =
      if other = name then some value else entries.lookup other := by
  have beq_of_ne {a b : String} (h : a ≠ b) : (a == b) = false := beq_eq_false_iff_ne.2 h
  induction entries with
  | nil => by_cases h : other = name <;> simp [setEntry, List.lookup_cons, h, beq_of_ne]
  | cons entry entries ih =>
    obtain ⟨key, old⟩ := entry
    by_cases hk : key = name
    · by_cases h : other = name <;> simp [setEntry, List.lookup_cons, hk, h, beq_of_ne]
    · simp only [setEntry, beq_iff_eq, hk, if_false, List.lookup_cons, ih]
      by_cases h : other = name
      · simp [h, beq_of_ne (Ne.symm hk)]
      · simp [h]

/-- A name that was set has its value, and the other names keep theirs. -/
@[simp] theorem get?_set (bindings : Bindings) (name other : String) (value : Float) :
    (bindings.set name value).get? other =
      if other = name then some value else bindings.get? other :=
  lookup_setEntry name other value bindings.entries

/-- The bindings after assignments, made in the order of the list. -/
def ofList (assignments : List (String × Float)) : Bindings :=
  assignments.foldl (fun bindings (name, value) => bindings.set name value) empty

end Bindings

end Reckoner
