import Mathlib.Data.List.Forall2
import Reckoner.Grammar
import Reckoner.Proofs.Reading
import Reckoner.Proofs.StackRun

/-!
# The two signs of the power

A power is written with either of two signs. Exchanging them anywhere in a row of tokens, well
formed or not, changes nothing but the sign that comes out in the same place and that a failure may
name. So both signs are read as one of them: the arrangement of a row with one sign for the power is
the arrangement of the row, with one sign for the power.
-/

namespace Reckoner

namespace Token

/-- A sign of the power. -/
def IsPower (token : Token) : Prop :=
  token.kind = .operator ∧ token.text ∈ Grammar.powerSigns

/-- Tokens that are the same, or are both a sign of the power. -/
def SamePower (token other : Token) : Prop :=
  token = other ∨ token.IsPower ∧ other.IsPower

/-- A token with the first sign of the power in the place of the second. -/
def unifyPower (token : Token) : Token :=
  if token = .operator "^" then .operator "**" else token

variable {token other : Token}

/-- The second sign of the power gives way to the first. -/
theorem unifyPower_caret : unifyPower (.operator "^") = .operator "**" := rfl

/-- Every other token stays. -/
theorem unifyPower_of_ne (h : token ≠ .operator "^") : token.unifyPower = token :=
  if_neg h

/-- The signs of the power are the two operators. -/
theorem isPower_iff : token.IsPower ↔ token = .operator "**" ∨ token = .operator "^" := by
  obtain ⟨kind, text⟩ := token
  simp [IsPower, Grammar.powerSigns, operator, and_or_left]

/-- Two tokens are the same up to the sign of the power exactly if one sign for it makes them the
same. -/
theorem samePower_iff : SamePower token other ↔ token.unifyPower = other.unifyPower := by
  rw [SamePower, isPower_iff, isPower_iff]
  by_cases ht : token = .operator "^"
  · by_cases ho : other = .operator "^"
    · simp [ht, ho]
    · rw [ht, unifyPower_caret, unifyPower_of_ne ho]
      simp [ho, Ne.symm ho, eq_comm]
  · by_cases ho : other = .operator "^"
    · rw [ho, unifyPower_caret, unifyPower_of_ne ht]
      simp [ht]
    · rw [unifyPower_of_ne ht, unifyPower_of_ne ho]
      simp only [ht, ho, or_false, or_iff_left_iff_imp]
      rintro ⟨rfl, rfl⟩
      rfl

/-- Two rows are the same up to the signs of the power exactly if one sign for it makes them the
same. -/
theorem forall₂_samePower_iff {tokens others : List Token} :
    List.Forall₂ SamePower tokens others ↔ tokens.map unifyPower = others.map unifyPower := by
  have hsame : SamePower = fun token other => token.unifyPower = other.unifyPower := by
    funext token other
    exact propext samePower_iff
  rw [hsame, ← List.forall₂_eq_eq_eq, List.forall₂_map_left_iff, List.forall₂_map_right_iff]

/-- One sign for the power leaves a token its kind. -/
@[simp] theorem kind_unifyPower (token : Token) : token.unifyPower.kind = token.kind := by
  unfold unifyPower
  split
  next h => rw [h]; rfl
  next => rfl

/-- What the table of the operators says of both signs alike stays with one of them. -/
theorem apply_text_unifyPower {α : Type} {f : String → α} (h : f "**" = f "^") (token : Token) :
    f token.unifyPower.text = f token.text := by
  unfold unifyPower
  split
  next htoken => rw [htoken]; exact h
  next => rfl

end Token

namespace Rpn

open Token

variable {waiting : List Token} {previous next : Option Token} {token : Token}

/-- Both signs of the power make the same tokens yield, and yield to the same signs. -/
theorem yields_unifyPower (symbol top : Token) :
    yields symbol.unifyPower.text top.unifyPower = yields symbol.text top := by
  have hsymbol : Operator.precedenceOf symbol.unifyPower.text = Operator.precedenceOf symbol.text :=
    apply_text_unifyPower (by decide) symbol
  have hleft : Operator.groupsLeft symbol.unifyPower.text = Operator.groupsLeft symbol.text :=
    apply_text_unifyPower (by decide) symbol
  have htop : Operator.precedenceOf top.unifyPower.text = Operator.precedenceOf top.text :=
    apply_text_unifyPower (by decide) top
  rw [yields, yields, kind_unifyPower, hsymbol, hleft, htop]

/-- A token is read in the same place behind either sign of the power. -/
theorem isFrontPosition_unifyPower (previous : Option Token) :
    isFrontPosition (previous.map unifyPower) = isFrontPosition previous := by
  cases previous with
  | none => rfl
  | some token => simp [isFrontPosition]

/-- A sign of the power is read as itself everywhere. -/
theorem readOperator_unifyPower (previous : Option Token) (token : Token) :
    readOperator (previous.map unifyPower) token.unifyPower =
      (readOperator previous token).unifyPower := by
  have hform : Operator.frontForm? token.unifyPower.text = Operator.frontForm? token.text :=
    apply_text_unifyPower (by decide) token
  rw [readOperator, readOperator, isFrontPosition_unifyPower, hform]
  split
  next =>
    cases hsymbol : Operator.frontForm? token.text with
    | none => rfl
    | some symbol =>
      have hne : operator symbol ≠ operator "^" := by
        intro heq
        obtain rfl : symbol = "^" := congrArg Token.text heq
        unfold Operator.frontForm? at hsymbol
        split at hsymbol
        next => simp at hsymbol
        next => split at hsymbol <;> simp at hsymbol
      exact (unifyPower_of_ne hne).symm
  next => rfl

/-- A group is closed in the same way with one sign for the power. -/
theorem closeGroup_unifyPower (waiting : List Token) :
    closeGroup (waiting.map unifyPower) =
      (closeGroup waiting).map (Prod.map (List.map unifyPower) (List.map unifyPower)) := by
  have hopening : (fun token => !isOpening token) ∘ unifyPower = fun token => !isOpening token := by
    funext token
    simp [isOpening]
  unfold closeGroup
  rw [List.takeWhile_map, List.dropWhile_map, hopening]
  cases waiting.dropWhile (!isOpening ·) with
  | nil => rfl
  | cons bracket below =>
    cases below with
    | nil => rfl
    | cons caller rest =>
      simp only [List.map_cons, kind_unifyPower]
      split
      next => simp [Except.map]
      next => rfl

/-- A token is read in the same way with one sign for the power. -/
theorem step_unifyPower (waiting : List Token) (previous : Option Token) (token : Token)
    (next : Option Token) :
    step (waiting.map unifyPower) (previous.map unifyPower) token.unifyPower
        (next.map unifyPower) =
      (step waiting previous token next).map
        (Prod.map (List.map unifyPower) (List.map unifyPower)) := by
  have hnext : (next.map unifyPower).any isOpening = next.any isOpening := by
    cases next <;> simp [isOpening]
  unfold step
  rw [kind_unifyPower, hnext]
  cases token.kind with
  | number => rfl
  | identifier => dsimp only; split <;> rfl
  | operator =>
    have hyields : yields (readOperator previous token).unifyPower.text ∘ unifyPower =
        yields (readOperator previous token).text :=
      funext fun top => yields_unifyPower (readOperator previous token) top
    simp only [readOperator_unifyPower, List.takeWhile_map, List.dropWhile_map, hyields]
    rfl
  | opening => rfl
  | closing => exact closeGroup_unifyPower waiting

/-- The arrangement of the first token and of the others, as two outcomes in a row. -/
theorem arrangeFrom_cons_eq_bind (waiting : List Token) (previous : Option Token) (token : Token)
    (tokens : List Token) :
    arrangeFrom waiting previous (token :: tokens) =
      (step waiting previous token tokens.head?).bind fun result =>
        (arrangeFrom result.2 (some token) tokens).map (result.1 ++ ·) := by
  cases h : step waiting previous token tokens.head? with
  | error failure => rw [arrangeFrom, h]; rfl
  | ok result => exact arrangeFrom_cons h

/-- A row with one sign for the power is arranged as the row, with one sign for the power. -/
theorem arrangeFrom_unifyPower (waiting : List Token) (previous : Option Token)
    (tokens : List Token) :
    arrangeFrom (waiting.map unifyPower) (previous.map unifyPower) (tokens.map unifyPower) =
      (arrangeFrom waiting previous tokens).map (List.map unifyPower) := by
  induction tokens generalizing waiting previous with
  | nil =>
    change drain (waiting.map unifyPower) = (drain waiting).map _
    have hopening : isOpening ∘ unifyPower = isOpening := by
      funext token
      simp [isOpening]
    unfold drain
    rw [List.any_map, hopening]
    split <;> rfl
  | cons token tokens ih =>
    rw [List.map_cons, arrangeFrom_cons_eq_bind, arrangeFrom_cons_eq_bind, List.head?_map,
      step_unifyPower]
    cases step waiting previous token tokens.head? with
    | error failure => rfl
    | ok result =>
      obtain ⟨moved, after⟩ := result
      change (arrangeFrom (after.map unifyPower) ((some token).map unifyPower)
          (tokens.map unifyPower)).map (moved.map unifyPower ++ ·) =
        ((arrangeFrom after (some token) tokens).map (moved ++ ·)).map _
      rw [ih]
      cases arrangeFrom after (some token) tokens with
      | error failure => rfl
      | ok rest => exact congrArg Except.ok List.map_append.symm

/-- A row of tokens with one sign for the power is arranged as the row, with one sign for it. -/
theorem arrange_unifyPower (tokens : List Token) :
    arrange (tokens.map unifyPower) = (arrange tokens).map (List.map unifyPower) :=
  arrangeFrom_unifyPower [] none tokens

end Rpn

section Values

open Token

variable (bindings : Bindings)

/-- The power has the same value, or the same kind of failure, by whichever sign it is written. -/
theorem runFrom_singleton_unifyPower (stack : List Float) (token : Token) :
    (Evaluation.runFrom bindings stack [token.unifyPower]).mapError Failure.kind =
      (Evaluation.runFrom bindings stack [token]).mapError Failure.kind := by
  by_cases h : token = .operator "^"
  · have hcaret : Meaning bindings (operator "^") (.binary "^" .power) := .binary rfl (by decide)
    have hstars : Meaning bindings (operator "**") (.binary "**" .power) := .binary rfl (by decide)
    rw [h, unifyPower_caret, Evaluation.runFrom_singleton (ofToken_eq_ok_iff.mpr hcaret),
      Evaluation.runFrom_singleton (ofToken_eq_ok_iff.mpr hstars)]
    rcases stack with _ | ⟨b, _ | ⟨a, stack⟩⟩
    · rfl
    · rfl
    · simp only [Instruction.execute, BinaryOperation.apply, checked]
      split <;> rfl
  · rw [unifyPower_of_ne h]

/-- A run over tokens with one sign for the power leaves the same values, or fails in the same
kind. -/
theorem runFrom_unifyPower (stack : List Float) (rpn : List Token) :
    (Evaluation.runFrom bindings stack (rpn.map unifyPower)).mapError Failure.kind =
      (Evaluation.runFrom bindings stack rpn).mapError Failure.kind := by
  induction rpn generalizing stack with
  | nil => rfl
  | cons token rpn ih =>
    rw [List.map_cons, Evaluation.runFrom_cons, Evaluation.runFrom_cons _ _ token]
    exact Outcome.mapError_bind_congr (runFrom_singleton_unifyPower bindings stack token) ih

/-- Arranged and evaluated with one sign for the power, a row has the same value, or fails in the
same kind. -/
theorem outcome_unifyPower (tokens : List Token) :
    ((Rpn.arrange (tokens.map unifyPower)).bind (evaluate bindings)).mapError Failure.kind =
      ((Rpn.arrange tokens).bind (evaluate bindings)).mapError Failure.kind := by
  rw [Rpn.arrange_unifyPower]
  cases Rpn.arrange tokens with
  | error failure => rfl
  | ok rpn =>
    change (evaluate bindings (rpn.map unifyPower)).mapError Failure.kind =
      (evaluate bindings rpn).mapError Failure.kind
    rw [evaluate_eq_bind, evaluate_eq_bind]
    exact Outcome.mapError_bind_congr (runFrom_unifyPower bindings [] rpn) fun _ => rfl

/-- Rows that are the same up to the signs of the power fail to be arranged for the same reason, or
come out as rows that are the same up to the signs of the power; and they have the same value, or
fail in the same kind. -/
theorem power_signs_interchange {tokens others : List Token}
    (h : List.Forall₂ SamePower tokens others) :
    (∀ failure, Rpn.arrange tokens = .error failure ↔ Rpn.arrange others = .error failure) ∧
    (∀ output, Rpn.arrange tokens = .ok output →
      ∃ other, Rpn.arrange others = .ok other ∧ List.Forall₂ SamePower output other) ∧
    ((Rpn.arrange tokens).bind (evaluate bindings)).mapError Failure.kind =
      ((Rpn.arrange others).bind (evaluate bindings)).mapError Failure.kind := by
  have hunified : tokens.map unifyPower = others.map unifyPower := forall₂_samePower_iff.mp h
  have harranged : (Rpn.arrange tokens).map (List.map unifyPower) =
      (Rpn.arrange others).map (List.map unifyPower) := by
    rw [← Rpn.arrange_unifyPower, ← Rpn.arrange_unifyPower, hunified]
  refine ⟨fun failure => ?_, fun output houtput => ?_, ?_⟩
  · rw [← Outcome.map_eq_error_iff (f := List.map unifyPower), harranged, Outcome.map_eq_error_iff]
  · rw [houtput] at harranged
    obtain ⟨other, hother, hsame⟩ := Outcome.map_eq_ok_iff.mp harranged.symm
    exact ⟨other, hother, forall₂_samePower_iff.mpr hsame.symm⟩
  · rw [← outcome_unifyPower, hunified, outcome_unifyPower]

/-- A tower of powers with a sign in front of its middle, and a row without an operand, with their
signs of the power exchanged. -/
theorem power_signs_interchange_tower :
    List.Forall₂ SamePower
      [number "2", operator "^", operator "-", identifier "x", operator "**", number "3"]
      [number "2", operator "**", operator "-", identifier "x", operator "^", number "3"] ∧
    (∃ output,
      Rpn.arrange [number "2", operator "**", operator "-", identifier "x", operator "^",
        number "3"] = .ok output ∧
      List.Forall₂ SamePower
        [number "2", identifier "x", operator "neg", number "3", operator "**", operator "^"]
        output) ∧
    ((Rpn.arrange [number "2", operator "**", closing]).bind (evaluate ⟨[("x", 0.5)]⟩)).mapError
        Failure.kind =
      ((Rpn.arrange [number "2", operator "^", closing]).bind (evaluate ⟨[("x", 0.5)]⟩)).mapError
        Failure.kind := by
  have htower : List.Forall₂ SamePower
      [number "2", operator "^", operator "-", identifier "x", operator "**", number "3"]
      [number "2", operator "**", operator "-", identifier "x", operator "^", number "3"] :=
    forall₂_samePower_iff.mpr rfl
  have hrow : List.Forall₂ SamePower [number "2", operator "**", closing]
      [number "2", operator "^", closing] :=
    forall₂_samePower_iff.mpr rfl
  obtain ⟨-, houtput, -⟩ := power_signs_interchange ⟨[("x", 0.5)]⟩ htower
  obtain ⟨-, -, hkind⟩ := power_signs_interchange ⟨[("x", 0.5)]⟩ hrow
  exact ⟨htower, houtput _ rfl, hkind⟩

end Values

end Reckoner
