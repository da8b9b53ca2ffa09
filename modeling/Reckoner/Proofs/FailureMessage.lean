import Reckoner.Proofs.Parentheses
import Reckoner.Proofs.PrintableText

/-!
# Messages of failures

A message speaks of texts that come from the expression, which may hold any character. It quotes
them, all but the label of an operation that has no value on its operands; and such a label is the
symbol of an operator or the name of a function. So the message of every evaluation that fails is
shown as it is, whatever the text or the tokens were.
-/

namespace Reckoner

open Text

/-- A text is the symbol of an operator or the name of a function. -/
def IsLabel (label : String) : Prop :=
  (∃ o ∈ Operator.table, o.symbol = label) ∨ ∃ f : MathFunction, f.name = label

/-- What a message tells without quoting it is such a label. -/
def Failure.Labelled : Failure → Prop
  | .mathDomain label _ => IsLabel label
  | _ => True

/-- A label is printable. -/
theorem IsLabel.every_label {label : String} (h : IsLabel label) : Every isPrintable label := by
  have htable : ∀ o ∈ Operator.table, Every isPrintable o.symbol := by decide
  obtain ⟨o, ho, rfl⟩ | ⟨f, rfl⟩ := h
  · exact htable o ho
  · cases f <;> decide

/-- A message is printable, and has no other unquoted text of an expression in it than a label. -/
theorem Failure.every_message {failure : Failure} (h : failure.Labelled) :
    Every isPrintable failure.message := by
  cases failure with
  | unexpectedClosing =>
    change Every isPrintable "Mismatched parentheses: unexpected ')'"
    decide
  | unclosedOpening =>
    change Every isPrintable "Mismatched parentheses: unclosed '('"
    decide
  | divisionByZero =>
    change Every isPrintable "Division by zero"
    decide
  | moduloByZero =>
    change Every isPrintable "Modulo by zero"
    decide
  | unknownIdentifier name =>
    have hfront : Every isPrintable "Unknown identifier: " := by decide
    exact hfront.append (every_quoted name)
  | unknownOperator symbol =>
    have hfront : Every isPrintable "Unknown operator: " := by decide
    exact hfront.append (every_quoted symbol)
  | missingOperands label needed held =>
    have hfront : Every isPrintable "Not enough operands for " := by decide
    have hneed : Every isPrintable ": need " := by decide
    have hhave : Every isPrintable ", have " := by decide
    exact ((((hfront.append (every_quoted label)).append hneed).append
      (Number.every_natural needed)).append hhave).append (Number.every_natural held)
  | invalidNumber text =>
    have hfront : Every isPrintable "Invalid number literal: " := by decide
    exact hfront.append (every_quoted text)
  | unexpectedToken text =>
    have hfront : Every isPrintable "Unexpected token in postfix sequence: " := by decide
    exact hfront.append (every_quoted text)
  | leftOver count =>
    have hfront : Every isPrintable "Malformed expression: " := by decide
    have hback : Every isPrintable " values left on the stack" := by decide
    exact (hfront.append (Number.every_natural count)).append hback
  | mathDomain label operands =>
    have hfront : Every isPrintable "Math domain error in " := by decide
    have hopen : Every isPrintable "(" := by decide
    have hclose : Every isPrintable ")" := by decide
    have hcomma : Every isPrintable ", " := by decide
    have hoperands : ∀ text ∈ operands.map Number.brief, Every isPrintable text := by
      intro text htext
      obtain ⟨x, -, rfl⟩ := List.mem_map.mp htext
      exact Number.every_brief x
    exact (((hfront.append (IsLabel.every_label h)).append hopen).append
      (every_intercalate hcomma hoperands)).append hclose

section

variable {bindings : Bindings} {token : Token} {held : List Float} {failure : Failure}

/-- A checked result fails under the label that it is checked under. -/
theorem labelled_of_checked {label : String} {operands : List Float} {result : Float}
    (h : checked label operands result = .error failure) (hlabel : IsLabel label) :
    failure.Labelled := by
  unfold checked at h
  split at h
  next =>
    cases h
    exact hlabel
  next => cases h

/-- An operation on two operands fails under the symbol of its operator. -/
theorem labelled_of_binary {symbol : String} {operation : BinaryOperation} {a b : Float}
    (h : operation.apply symbol a b = .error failure)
    (hsymbol : ∃ o ∈ Operator.table, o.symbol = symbol) : failure.Labelled := by
  cases operation with
  | divide =>
    simp only [BinaryOperation.apply] at h
    split at h <;> cases h
    trivial
  | remainder =>
    simp only [BinaryOperation.apply] at h
    split at h
    next => cases h; trivial
    next => exact labelled_of_checked h (.inl hsymbol)
  | power => exact labelled_of_checked h (.inl hsymbol)
  | _ => cases h

/-- What a token stands for fails under the name of its function or the symbol of its operator. -/
theorem Meaning.labelled {instruction : Instruction} (meaning : Meaning bindings token instruction)
    (h : instruction.execute held = .error failure) : failure.Labelled := by
  cases meaning with
  | number kind read => cases h
  | recalled kind bound => cases h
  | constant kind free known => cases h
  | function kind free plain known =>
    cases held with
    | nil => cases h; trivial
    | cons x held =>
      exact labelled_of_checked (Outcome.map_eq_error_iff.mp h) (.inr ⟨_, rfl⟩)
  | unary kind known =>
    cases held with
    | nil => cases h; trivial
    | cons a held => cases h
  | binary kind known =>
    obtain ⟨o, hfind, -⟩ := Option.map_eq_some_iff.mp (Operator.binary?_eq_some_iff.mp known)
    rcases held with _ | ⟨b, _ | ⟨a, held⟩⟩
    · cases h; trivial
    · cases h; trivial
    · exact labelled_of_binary (Outcome.map_eq_error_iff.mp h) ⟨o, Operator.find?_mem hfind⟩

/-- An evaluation of any tokens fails under such a label, or under none. -/
theorem labelled_of_evaluate {rpn : List Token} (h : evaluate bindings rpn = .error failure) :
    failure.Labelled := by
  cases fails_of_evaluate h with
  | meaningless mem cause => cases cause <;> trivial
  | execution mem meaning cause => exact meaning.labelled cause
  | leftOver count => trivial

/-- The message of tokens that have no value is shown as it is, whatever their texts are. -/
theorem inert_of_evaluate {rpn : List Token} (h : evaluate bindings rpn = .error failure) :
    Inert failure.message :=
  inert_of_printable (Failure.every_message (labelled_of_evaluate h))

/-- So is the message of a text that has no value, whatever its characters are. -/
theorem Calculator.inert_of_evaluate {calculator : Calculator} {text : String}
    (h : calculator.evaluate text = .error failure) : Inert failure.message := by
  by_cases hkind : failure.kind = .syntaxError
  · have hlabelled : failure.Labelled := by
      rcases Failure.kind_eq_syntaxError_iff.mp hkind with rfl | rfl <;> trivial
    exact inert_of_printable (Failure.every_message hlabelled)
  · obtain ⟨rpn, -, hvalue⟩ := exists_arrange_of_evaluate_eq_error h hkind
    exact Reckoner.inert_of_evaluate hvalue

end

end Reckoner
