import Reckoner.Proofs.Outcome
import Reckoner.Rpn

/-!
# Reading one token

The first token of a row is read between its neighbours, and the others behind it. A sign is read
by its place: in front of an operand it stands for the operator that it names there, behind an
operand for itself.
-/

namespace Reckoner.Rpn

/-- The first token of a row is read by `step`. -/
theorem arrangeFrom_cons {waiting moved after tokens : List Token} {previous : Option Token}
    {token : Token} (h : step waiting previous token tokens.head? = .ok (moved, after)) :
    arrangeFrom waiting previous (token :: tokens) =
      (arrangeFrom after (some token) tokens).map (moved ++ ·) := by
  rw [arrangeFrom, h]
  change (do return moved ++ (← arrangeFrom after (some token) tokens)) = _
  cases arrangeFrom after (some token) tokens <;> rfl

/-- The arrangement of a row succeeds exactly if its first step does and the arrangement of the
others does behind it. -/
theorem arrangeFrom_cons_eq_ok_iff {waiting tokens output : List Token} {previous : Option Token}
    {token : Token} :
    arrangeFrom waiting previous (token :: tokens) = .ok output ↔
      ∃ moved after rest, step waiting previous token tokens.head? = .ok (moved, after) ∧
        arrangeFrom after (some token) tokens = .ok rest ∧ moved ++ rest = output := by
  change ((step waiting previous token tokens.head?).bind fun result =>
    (arrangeFrom result.2 (some token) tokens).bind fun rest => .ok (result.1 ++ rest)) = _ ↔ _
  simp only [Outcome.bind_eq_ok_iff, Prod.exists, Except.ok.injEq]
  constructor
  · rintro ⟨moved, after, hs, rest, hr, ho⟩
    exact ⟨moved, after, rest, hs, hr, ho⟩
  · rintro ⟨moved, after, rest, hs, hr, ho⟩
    exact ⟨moved, after, hs, rest, hr, ho⟩

/-- An operator stays an operator where it is read. -/
theorem readOperator_kind (previous : Option Token) {token : Token}
    (h : token.kind = .operator) : (readOperator previous token).kind = .operator := by
  unfold readOperator
  split
  · split
    · rfl
    · exact h
  · exact h

/-- A token is an opening parenthesis by its kind. -/
theorem isOpening_of_kind {token : Token} {kind : Token.Kind} (h : token.kind = kind) :
    isOpening token = (kind == .opening) := by
  rw [isOpening, h]

/-- An operator is no opening parenthesis. -/
theorem isOpening_readOperator (previous : Option Token) {token : Token}
    (h : token.kind = .operator) : isOpening (readOperator previous token) = false :=
  isOpening_of_kind (readOperator_kind previous h)

/-- In front of an operand, a sign has its reading there. -/
theorem readOperator_text {previous : Option Token} (h : isFrontPosition previous = true)
    (token : Token) : (readOperator previous token).text =
      (Operator.frontForm? token.text).getD token.text := by
  rw [readOperator, if_pos h]
  cases Operator.frontForm? token.text <;> rfl

/-- In front of an operand the signs `-` and `+` stand for operators of their own. -/
theorem readOperator_front {previous : Option Token} (h : isFrontPosition previous = true)
    (sign : String) :
    readOperator previous (.operator sign) =
      .operator (if sign = "-" then "neg" else if sign = "+" then "pos" else sign) := by
  rw [readOperator, if_pos h]
  by_cases hm : sign = "-"
  · subst hm; rfl
  by_cases hp : sign = "+"
  · subst hp; rfl
  simp [Operator.frontForm?, Token.operator, hm, hp]

/-- Behind an operand every sign stands for itself. -/
theorem readOperator_behind {previous : Option Token} (h : isFrontPosition previous = false)
    (token : Token) : readOperator previous token = token := by
  rw [readOperator, h, if_neg Bool.false_ne_true]

end Reckoner.Rpn
