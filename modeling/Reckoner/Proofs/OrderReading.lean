import Reckoner.Service

/-!
# Reading of orders

Every body of a request either asks for an expression in a session or is unfit. An order is read
from the former and no order from the latter.
-/

namespace Reckoner.Service

/-- Bodies that make no order: there is none, or it has no fields, or the expression is missing, no
text or too long, or the session id is no text, empty or too long. -/
inductive Payload.Unfit : Payload → Prop where
  /-- There is no body. -/
  | absent : Unfit .absent
  /-- The body has no fields. -/
  | fieldless : Unfit .fieldless
  /-- The expression is missing, no text or too long. -/
  | expression {expression session : Field}
      (unfit : expression = .absent ∨ expression = .notText ∨
        ∃ text, expression = .text text ∧ 10000 < text.length) :
      Unfit (.fields expression session)
  /-- The session id is no text, empty or too long. -/
  | session {expression session : Field}
      (unfit : session = .notText ∨
        ∃ text, session = .text text ∧ (text = "" ∨ 128 < text.length)) :
      Unfit (.fields expression session)

/-- Bodies that ask for an expression in a session. -/
inductive Payload.Asks : Payload → String → String → Prop where
  /-- The session is named. -/
  | named {expression id : String} (short : expression.length ≤ 10000) (nonempty : id ≠ "")
      (shortId : id.length ≤ 128) : Asks (.fields (.text expression) (.text id)) expression id
  /-- No session is named, and the default one is meant. -/
  | unnamed {expression : String} (short : expression.length ≤ 10000) :
      Asks (.fields (.text expression) .absent) expression "default"

section

variable {payload : Payload} {order : Order} {field : Field} {shortest longest : Nat}

/-- A field is read as its text if the text is neither too short nor too long. -/
theorem readText_eq_ok_iff {text : String} :
    readText shortest longest field = .ok text ↔
      field = .text text ∧ shortest ≤ text.length ∧ text.length ≤ longest := by
  cases field with
  | absent => simp [readText]
  | notText => simp [readText]
  | text own =>
    rw [readText, Field.text.injEq]
    constructor
    · intro h
      split at h
      next => cases h
      next hshort =>
        split at h
        next => cases h
        next hlong =>
          cases h
          exact ⟨rfl, Nat.le_of_not_lt hshort, Nat.le_of_not_lt hlong⟩
    · rintro ⟨rfl, hshort, hlong⟩
      rw [if_neg (Nat.not_lt.mpr hshort), if_neg (Nat.not_lt.mpr hlong)]

/-- A field is not read if it is missing, no text, or one that is too short or too long. -/
theorem readText_fails_iff :
    (∃ fault, readText shortest longest field = .error fault) ↔
      field = .absent ∨ field = .notText ∨
        ∃ text, field = .text text ∧ (text.length < shortest ∨ longest < text.length) := by
  cases field with
  | absent => simp [readText]
  | notText => simp [readText]
  | text own =>
    simp only [reduceCtorEq, false_or, Field.text.injEq, exists_eq_left', readText]
    split
    next hshort => simp [hshort]
    next hshort =>
      split
      next hlong => simp [hlong]
      next hlong => simp [hshort, hlong]

/-- A session id is read as a field if it is given. -/
theorem readSession_of_given (h : field ≠ .absent) :
    readSession field = readText 1 idLimit field := by
  cases field with
  | absent => exact absurd rfl h
  | notText => rfl
  | text text => rfl

/-- The session id is the text of its field, or the default one if there is no field. -/
theorem readSession_eq_ok_iff {id : String} :
    readSession field = .ok id ↔ field = .absent ∧ id = "default" ∨
      field = .text id ∧ id ≠ "" ∧ id.length ≤ 128 := by
  by_cases hgiven : field = .absent
  · subst hgiven
    simp [readSession, defaultSession, eq_comm]
  · rw [readSession_of_given hgiven, readText_eq_ok_iff, ← Nat.not_lt, Nat.lt_one_iff,
      String.length_eq_zero_iff]
    simp [hgiven, idLimit]

/-- A session id is not read if its field is no text, empty or too long. -/
theorem readSession_fails_iff :
    (∃ fault, readSession field = .error fault) ↔ field = .notText ∨
      ∃ text, field = .text text ∧ (text = "" ∨ 128 < text.length) := by
  by_cases hgiven : field = .absent
  · subst hgiven
    simp [readSession]
  · rw [readSession_of_given hgiven, readText_fails_iff]
    simp only [Nat.lt_one_iff, String.length_eq_zero_iff, hgiven, false_or, idLimit]

/-- An order is read exactly from a body that asks for its expression in its session. -/
theorem readOrder_eq_ok_iff :
    readOrder payload = .ok order ↔ payload.Asks order.expression order.session := by
  constructor
  · intro h
    unfold readOrder at h
    split at h
    next => cases h
    next => cases h
    next =>
      split at h
      next hexpression hsession =>
        cases h
        obtain ⟨rfl, -, hlength⟩ := readText_eq_ok_iff.mp hexpression
        rcases readSession_eq_ok_iff.mp hsession with ⟨rfl, rfl⟩ | ⟨rfl, hempty, hid⟩
        · exact .unnamed hlength
        · exact .named hlength hempty hid
      next => cases h
  · obtain ⟨expression, id⟩ := order
    have hread (hlength : expression.length ≤ 10000) :
        readExpression (.text expression) = .ok expression :=
      readText_eq_ok_iff.mpr ⟨rfl, Nat.zero_le _, hlength⟩
    rintro (⟨hlength, hempty, hid⟩ | ⟨hlength⟩)
    · rw [readOrder, hread hlength, readSession_eq_ok_iff.mpr (.inr ⟨rfl, hempty, hid⟩)]
    · rw [readOrder, hread hlength]
      rfl

/-- A body makes no order exactly if it is unfit. -/
theorem readOrder_fails_iff :
    (∃ complaints, readOrder payload = .error complaints) ↔ payload.Unfit := by
  have hexpression {field : Field} : (∃ fault, readExpression field = .error fault) ↔
      field = .absent ∨ field = .notText ∨ ∃ text, field = .text text ∧ 10000 < text.length := by
    rw [readExpression, readText_fails_iff]
    simp [expressionLimit]
  constructor
  · rintro ⟨complaints, h⟩
    unfold readOrder at h
    split at h
    next => exact .absent
    next => exact .fieldless
    next expression session =>
      cases hfirst : readExpression expression with
      | error fault => exact .expression (hexpression.mp ⟨fault, hfirst⟩)
      | ok text =>
        cases hsecond : readSession session with
        | error fault => exact .session (readSession_fails_iff.mp ⟨fault, hsecond⟩)
        | ok id =>
          rw [hfirst, hsecond] at h
          cases h
  · rintro (_ | _ | hunfit | hunfit)
    · exact ⟨_, rfl⟩
    · exact ⟨_, rfl⟩
    · obtain ⟨fault, hfault⟩ := hexpression.mpr hunfit
      rw [readOrder, hfault]
      exact ⟨_, rfl⟩
    · obtain ⟨fault, hfault⟩ := readSession_fails_iff.mpr hunfit
      rw [readOrder, hfault]
      cases readExpression _ <;> exact ⟨_, rfl⟩

/-- Every body is unfit, or asks for an expression in a session. -/
theorem unfit_or_asks (payload : Payload) :
    payload.Unfit ∨ ∃ expression id, payload.Asks expression id := by
  cases h : readOrder payload with
  | error complaints => exact .inl (readOrder_fails_iff.mp ⟨complaints, h⟩)
  | ok order => exact .inr ⟨_, _, readOrder_eq_ok_iff.mp h⟩

end

end Reckoner.Service
