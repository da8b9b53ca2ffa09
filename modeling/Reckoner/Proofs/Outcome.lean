/-!
# Outcomes

An outcome is a value or a failure. An outcome made from others is a value exactly if these are.
-/

namespace Reckoner.Outcome

variable {ε κ α β : Type}

/-- An outcome is either a value or a failure, and tells which. -/
theorem isOk_iff {outcome : Except ε α} : outcome.isOk = true ↔ ∃ a, outcome = .ok a := by
  cases outcome <;> simp [Except.isOk, Except.toBool]

/-- The failure that an outcome is, if it is one. -/
def failure? : Except ε α → Option ε
  | .ok _ => none
  | .error failure => some failure

/-- An outcome is a failure exactly if it tells one. -/
theorem failure?_eq_some_iff {outcome : Except ε α} {failure : ε} :
    failure? outcome = some failure ↔ outcome = .error failure := by
  cases outcome <;> simp [failure?]

/-- A changed outcome is a value exactly if the outcome is. -/
theorem map_eq_ok_iff {f : α → β} {outcome : Except ε α} {b : β} :
    outcome.map f = .ok b ↔ ∃ a, outcome = .ok a ∧ f a = b := by
  cases outcome <;> simp [Except.map]

/-- A changed outcome fails exactly as the outcome does. -/
theorem map_eq_error_iff {f : α → β} {outcome : Except ε α} {failure : ε} :
    outcome.map f = .error failure ↔ outcome = .error failure := by
  cases outcome <;> simp [Except.map]

/-- Two outcomes in a row are a value exactly if both are. -/
theorem bind_eq_ok_iff {f : α → Except ε β} {outcome : Except ε α} {b : β} :
    outcome.bind f = .ok b ↔ ∃ a, outcome = .ok a ∧ f a = .ok b := by
  cases outcome <;> simp [Except.bind]

/-- Two outcomes in a row fail as the first one that fails. -/
theorem bind_eq_error_iff {f : α → Except ε β} {outcome : Except ε α} {failure : ε} :
    outcome.bind f = .error failure ↔
      outcome = .error failure ∨ ∃ a, outcome = .ok a ∧ f a = .error failure := by
  cases outcome <;> simp [Except.bind]

/-- Two outcomes in a row fail in the same kind, or have the same value, if each of them does. -/
theorem mapError_bind_congr {kind : ε → κ} {first second : Except ε α} {f g : α → Except ε β}
    (h : first.mapError kind = second.mapError kind)
    (hthen : ∀ a, (f a).mapError kind = (g a).mapError kind) :
    (first.bind f).mapError kind = (second.bind g).mapError kind := by
  cases first with
  | error failure =>
    cases second with
    | error other => exact congrArg Except.error (Except.error.inj h)
    | ok b => cases h
  | ok a =>
    cases second with
    | error other => cases h
    | ok b =>
      obtain rfl : a = b := Except.ok.inj h
      exact hthen a

end Reckoner.Outcome
