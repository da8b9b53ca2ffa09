import Reckoner.Proofs.Explanation
import Reckoner.Proofs.RunFailure

/-!
# Unbalanced parentheses

Whether the tokens of a text can be arranged depends on its parentheses alone. They are read from
left to right: the arrangement fails at the first closing one that closes nothing, and at the end if
some are still open. So a text is rejected for its syntax exactly if its parentheses are unbalanced,
whatever else is wrong with it; and since the arrangement leaves the parentheses out, the evaluation
never meets one.
-/

namespace Reckoner.Rpn

/-- Reads the parentheses among some characters, behind `depth` that are open. -/
def checkParentheses : Nat → List Char → Except Failure Unit
  | depth, [] => if depth = 0 then .ok () else .error .unclosedOpening
  | depth, c :: cs =>
    if c = '(' then checkParentheses (depth + 1) cs
    else if c = ')' then
      match depth with
      | 0 => .error .unexpectedClosing
      | outer + 1 => checkParentheses outer cs
    else checkParentheses depth cs

/-- An opening parenthesis is open behind it. -/
theorem checkParentheses_opening (depth : Nat) (cs : List Char) :
    checkParentheses depth ('(' :: cs) = checkParentheses (depth + 1) cs := by
  rw [checkParentheses.eq_def]
  rfl

/-- A closing parenthesis closes one of those that are open. -/
theorem checkParentheses_closing (depth : Nat) (cs : List Char) :
    checkParentheses (depth + 1) (')' :: cs) = checkParentheses depth cs :=
  rfl

/-- Other characters do not matter. -/
theorem checkParentheses_other {c : Char} (hopening : c ≠ '(') (hclosing : c ≠ ')') (depth : Nat)
    (cs : List Char) : checkParentheses depth (c :: cs) = checkParentheses depth cs := by
  rw [checkParentheses.eq_def]
  simp only [hopening, hclosing, if_false]

/-- Whether a character is a parenthesis. -/
def isParenthesis (c : Char) : Bool :=
  c = '(' ∨ c = ')'

/-- The parenthesis that a token is, if it is one. -/
def parenthesisOf? (token : Token) : Option Char :=
  match token.kind with
  | .opening => some '('
  | .closing => some ')'
  | _ => none

/-- The parentheses of a row of tokens. -/
def parentheses (tokens : List Token) : List Char :=
  tokens.filterMap parenthesisOf?

/-- Some front of the characters closes more parentheses than it opens and `depth` others. -/
def Overcloses (depth : Nat) (cs : List Char) : Prop :=
  ∃ front, front <+: cs ∧ depth + front.count '(' < front.count ')'

/-- Without characters nothing is closed. -/
theorem not_overcloses_nil (depth : Nat) : ¬ Overcloses depth [] := by
  rintro ⟨front, hfront, hcount⟩
  rw [List.prefix_nil.mp hfront] at hcount
  cases hcount

/-- The empty front closes nothing, so a front that closes too much holds the first character. -/
theorem overcloses_cons {depth : Nat} {c : Char} {cs : List Char} :
    Overcloses depth (c :: cs) ↔
      ∃ front, front <+: cs ∧ depth + (c :: front).count '(' < (c :: front).count ')' := by
  constructor
  · rintro ⟨front, hfront, hcount⟩
    obtain rfl | ⟨front, rfl, hrest⟩ := List.prefix_cons_iff.mp hfront
    · cases hcount
    · exact ⟨front, hrest, hcount⟩
  · rintro ⟨front, hfront, hcount⟩
    exact ⟨c :: front, (List.prefix_cons_inj c).mpr hfront, hcount⟩

/-- An opening parenthesis leaves one more to close. -/
theorem overcloses_opening {depth : Nat} {cs : List Char} :
    Overcloses depth ('(' :: cs) ↔ Overcloses (depth + 1) cs := by
  have hcount (front : List Char) : depth + ('(' :: front).count '(' = depth + 1 + front.count '(' ∧
      ('(' :: front).count ')' = front.count ')' := by
    rw [List.count_cons_self, List.count_cons_of_ne (by decide)]
    omega
  rw [overcloses_cons]
  simp only [hcount, Overcloses]

/-- A closing parenthesis closes one of those that are open. -/
theorem overcloses_closing {depth : Nat} {cs : List Char} :
    Overcloses (depth + 1) (')' :: cs) ↔ Overcloses depth cs := by
  have hcount (front : List Char) : (depth + 1 + (')' :: front).count '(' <
      (')' :: front).count ')') ↔ depth + front.count '(' < front.count ')' := by
    rw [List.count_cons_self, List.count_cons_of_ne (by decide)]
    omega
  rw [overcloses_cons]
  simp only [hcount, Overcloses]

/-- A closing parenthesis closes too much where none is open. -/
theorem overcloses_unexpected (cs : List Char) : Overcloses 0 (')' :: cs) :=
  overcloses_cons.mpr ⟨[], List.nil_prefix, by decide⟩

/-- Other characters open and close nothing. -/
theorem overcloses_other {depth : Nat} {c : Char} {cs : List Char} (hopening : c ≠ '(')
    (hclosing : c ≠ ')') : Overcloses depth (c :: cs) ↔ Overcloses depth cs := by
  rw [overcloses_cons]
  simp only [List.count_cons_of_ne hopening, List.count_cons_of_ne hclosing, Overcloses]

/-- How the parentheses are read: they are balanced, or some front closes too much, or none does
and some are left open. -/
theorem checkParentheses_cases (depth : Nat) (cs : List Char) :
    checkParentheses depth cs = .ok () ∧ ¬ Overcloses depth cs ∧
        depth + cs.count '(' = cs.count ')' ∨
      checkParentheses depth cs = .error .unexpectedClosing ∧ Overcloses depth cs ∨
      checkParentheses depth cs = .error .unclosedOpening ∧ ¬ Overcloses depth cs ∧
        cs.count ')' < depth + cs.count '(' := by
  induction cs generalizing depth with
  | nil =>
    cases depth with
    | zero => exact .inl ⟨rfl, not_overcloses_nil 0, rfl⟩
    | succ depth => exact .inr (.inr ⟨rfl, not_overcloses_nil _, Nat.succ_pos depth⟩)
  | cons c cs ih =>
    by_cases hopening : c = '('
    · subst hopening
      have hcount : depth + ('(' :: cs).count '(' = depth + 1 + cs.count '(' := by
        rw [List.count_cons_self]
        omega
      rw [checkParentheses_opening, overcloses_opening, hcount, List.count_cons_of_ne (by decide)]
      exact ih (depth + 1)
    by_cases hclosing : c = ')'
    · subst hclosing
      cases depth with
      | zero => exact .inr (.inl ⟨rfl, overcloses_unexpected cs⟩)
      | succ depth =>
        have hcount : depth + 1 + (')' :: cs).count '(' = depth + cs.count '(' + 1 := by
          rw [List.count_cons_of_ne (by decide)]
          omega
        rw [checkParentheses_closing, overcloses_closing, hcount, List.count_cons_self,
          Nat.add_right_cancel_iff, Nat.add_lt_add_iff_right]
        exact ih depth
    · rw [checkParentheses_other hopening hclosing, overcloses_other hopening hclosing,
        List.count_cons_of_ne hopening, List.count_cons_of_ne hclosing]
      exact ih depth

/-- The reading finds an unexpected parenthesis exactly if some front closes too much. -/
theorem checkParentheses_eq_unexpected_iff {depth : Nat} {cs : List Char} :
    checkParentheses depth cs = .error .unexpectedClosing ↔ Overcloses depth cs := by
  obtain ⟨h, hover, -⟩ | ⟨h, hover⟩ | ⟨h, hover, -⟩ := checkParentheses_cases depth cs <;>
    simp [h, hover]

/-- The reading finds parentheses left open exactly if no front closes too much and all together
open more than they close. -/
theorem checkParentheses_eq_unclosed_iff {depth : Nat} {cs : List Char} :
    checkParentheses depth cs = .error .unclosedOpening ↔
      ¬ Overcloses depth cs ∧ cs.count ')' < depth + cs.count '(' := by
  obtain ⟨h, hover, hcount⟩ | ⟨h, hover⟩ | ⟨h, hover, hcount⟩ := checkParentheses_cases depth cs
  · simp [h, hcount]
  · simp [h, hover]
  · simp [h, hover, hcount]

/-- The reading succeeds exactly if no front closes too much and all together close what they
open. -/
theorem checkParentheses_eq_ok_iff {depth : Nat} {cs : List Char} :
    checkParentheses depth cs = .ok () ↔
      ¬ Overcloses depth cs ∧ depth + cs.count '(' = cs.count ')' := by
  obtain ⟨h, hover, hcount⟩ | ⟨h, hover⟩ | ⟨h, hover, hcount⟩ := checkParentheses_cases depth cs
  · simp [h, hover, hcount]
  · simp [h, hover]
  · simp [h, hcount.ne']

/-- Characters that are no parentheses may be left out. -/
theorem checkParentheses_filter (depth : Nat) (cs : List Char) :
    checkParentheses depth (cs.filter isParenthesis) = checkParentheses depth cs := by
  induction cs generalizing depth with
  | nil => rfl
  | cons c cs ih =>
    by_cases hopening : c = '('
    · subst hopening
      rw [List.filter_cons_of_pos (by decide), checkParentheses_opening, checkParentheses_opening,
        ih]
    by_cases hclosing : c = ')'
    · subst hclosing
      rw [List.filter_cons_of_pos (by decide)]
      cases depth with
      | zero => rfl
      | succ depth => exact ih depth
    · rw [List.filter_cons_of_neg (by simp [isParenthesis, hopening, hclosing]), ih,
        checkParentheses_other hopening hclosing]

section Arrangement

variable {waiting : List Token} {previous next : Option Token} {token : Token}

/-- A step fails at a closing parenthesis only, and only if no opening one waits. -/
theorem step_eq_error_iff {failure : Failure} :
    step waiting previous token next = .error failure ↔
      token.kind = .closing ∧ waiting.countP isOpening = 0 ∧ failure = .unexpectedClosing := by
  unfold step
  split
  next hk => simp [hk]
  next hk => split <;> simp [hk]
  next hk => simp [hk]
  next hk => simp [hk]
  next hk =>
    have hrest : waiting.dropWhile (!isOpening ·) = [] ↔ waiting.countP isOpening = 0 := by
      simp [List.dropWhile_eq_nil_iff, List.countP_eq_zero]
    rw [← hrest, closeGroup]
    split
    next h => simp [hk, h, eq_comm]
    next bracket below h =>
      rw [h]
      split
      next => split <;> simp
      next => simp

/-- The parentheses of the tokens decide whether they can be arranged, and what fails if not. -/
theorem map_arrangeFrom (waiting : List Token) (previous : Option Token) (tokens : List Token) :
    (arrangeFrom waiting previous tokens).map (fun _ => ()) =
      checkParentheses (waiting.countP isOpening) (parentheses tokens) := by
  induction tokens generalizing waiting previous with
  | nil =>
    have hdepth : waiting.any isOpening = true ↔ ¬ waiting.countP isOpening = 0 := by
      simp [List.countP_eq_zero]
    change (drain waiting).map _ =
      if waiting.countP isOpening = 0 then .ok () else .error .unclosedOpening
    unfold drain
    split
    next h => rw [if_neg (hdepth.mp h)]; rfl
    next h => rw [if_pos (not_not.mp (mt hdepth.mpr h))]; rfl
  | cons token tokens ih =>
    cases hs : step waiting previous token tokens.head? with
    | error failure =>
      obtain ⟨hk, hdepth, rfl⟩ := step_eq_error_iff.mp hs
      have hparenthesis : parentheses (token :: tokens) = ')' :: parentheses tokens := by
        rw [parentheses, List.filterMap_cons, parenthesisOf?, hk]
        rfl
      rw [arrangeFrom, hs, hparenthesis, hdepth]
      rfl
    | ok result =>
      obtain ⟨moved, after⟩ := result
      have hdepth := (moves_of_step hs).depth
      have hmap : ((arrangeFrom after (some token) tokens).map (moved ++ ·)).map (fun _ => ()) =
          (arrangeFrom after (some token) tokens).map (fun _ => ()) := by
        cases arrangeFrom after (some token) tokens <;> rfl
      rw [arrangeFrom_cons hs, hmap, ih, parentheses, parentheses, List.filterMap_cons,
        parenthesisOf?]
      cases hk : token.kind with
      | opening =>
        have hmore : after.countP isOpening = waiting.countP isOpening + 1 := by
          simpa [hk] using hdepth
        rw [hmore]
        exact (checkParentheses_opening _ _).symm
      | closing =>
        have hfewer : waiting.countP isOpening = after.countP isOpening + 1 := by
          simpa [hk] using hdepth.symm
        rw [hfewer]
        rfl
      | _ =>
        have hsame : after.countP isOpening = waiting.countP isOpening := by
          simpa [hk] using hdepth
        rw [hsame]

/-- No parenthesis comes out of a row of tokens. -/
theorem not_parenthesis_of_arrange {tokens output : List Token} (h : arrange tokens = .ok output)
    {token : Token} (ht : token ∈ output) : token.kind ≠ .opening ∧ token.kind ≠ .closing := by
  obtain ⟨_, -, before, hmem⟩ := exists_mem_of_mem_readings ((arrange_perm h).mem_iff.mp ht)
  exact (kind_of_mem_reading hmem).2

end Arrangement

end Reckoner.Rpn

namespace Reckoner.Token

open Text Rpn

/-- The parentheses of a lexeme are those of its kind. -/
theorem IsValid.filter_isParenthesis {token : Token} (h : token.IsValid) :
    token.text.toList.filter isParenthesis = (parenthesisOf? token).toList := by
  have hnone {cs : List Char} (h : ∀ c ∈ cs, c ≠ '(' ∧ c ≠ ')') : cs.filter isParenthesis = [] := by
    rw [List.filter_eq_nil_iff]
    intro c hc
    simp [isParenthesis, h c hc]
  obtain ⟨kind, text⟩ := token
  cases kind with
  | number =>
    refine hnone fun c hc => ?_
    rcases IsNumber.mem h hc with hdigit | rfl
    · constructor <;> rintro rfl <;> exact absurd hdigit (by decide)
    · decide
  | identifier =>
    refine hnone fun c hc => ?_
    have hname := IsName.mem h hc
    constructor <;> rintro rfl <;> exact absurd hname (by decide)
  | operator =>
    refine hnone ?_
    rcases h with ⟨c, d, htext, hdouble⟩ | ⟨c, htext, -, -, -, -, hopening, hclosing⟩
    · have hsigns : ∀ sign ∈ ['=', '>', '<', '!', '&', '|', '*'], sign ≠ '(' ∧ sign ≠ ')' := by
        simp
      obtain ⟨hfirst, hsecond⟩ := mem_of_isDoubleSign hdouble
      simpa [htext] using ⟨hsigns c hfirst, hsigns d hsecond⟩
    · simpa [htext] using ⟨hopening, hclosing⟩
  | opening => exact congrArg (List.filter isParenthesis) h
  | closing => exact congrArg (List.filter isParenthesis) h

/-- The parentheses of the tokens of a text are those of the text. -/
theorem parentheses_ofText (text : String) :
    parentheses (ofText text) = text.toList.filter isParenthesis := by
  have hvisible : text.toList.filter isParenthesis =
      (text.toList.filter (!isBlank ·)).filter isParenthesis := by
    rw [List.filter_filter]
    refine List.filter_congr fun c _ => ?_
    by_cases hopening : c = '('
    · subst hopening
      decide
    by_cases hclosing : c = ')'
    · subst hclosing
      decide
    · simp [isParenthesis, hopening, hclosing]
  rw [hvisible, ← flatMap_scan, List.filter_flatMap, parentheses, List.filterMap_eq_flatMap_toList]
  refine List.flatMap_congr fun token htoken => ?_
  exact (isValid_of_mem_ofText htoken).filter_isParenthesis.symm

end Reckoner.Token

namespace Reckoner

open Rpn

/-- The failures for which an expression is rejected for its syntax. -/
theorem Failure.kind_eq_syntaxError_iff {failure : Failure} :
    failure.kind = .syntaxError ↔ failure = .unexpectedClosing ∨ failure = .unclosedOpening := by
  cases failure <;> simp [kind]

/-- The reading of parentheses fails for their syntax only. -/
theorem kind_of_checkParentheses_eq_error {depth : Nat} {cs : List Char} {failure : Failure}
    (h : checkParentheses depth cs = .error failure) : failure.kind = .syntaxError := by
  obtain ⟨hread, -⟩ | ⟨hread, -⟩ | ⟨hread, -⟩ := checkParentheses_cases depth cs <;>
    rw [hread] at h <;> cases h <;> rfl

namespace Calculator

/-- Every front of the characters closes no more parentheses than it opens, and all together close
what they open. -/
def Balanced (cs : List Char) : Prop :=
  (∀ front, front <+: cs → front.count ')' ≤ front.count '(') ∧ cs.count '(' = cs.count ')'

/-- The parentheses of an expression are those of its text. -/
theorem parentheses_expressionTokens (text : String) :
    parentheses (expressionTokens text) = text.toList.filter isParenthesis := by
  rw [← Token.parentheses_ofText, ofText_eq, parentheses, parentheses, List.filterMap_append]
  cases (Statement.ofTokens (Token.ofText text)).target <;> rfl

/-- The parentheses of a text decide whether its tokens can be arranged, those of the expression
alone and all of them. -/
theorem map_arrange {text : String} {tokens : List Token}
    (h : tokens = expressionTokens text ∨ tokens = Token.ofText text) :
    (arrange tokens).map (fun _ => ()) = checkParentheses 0 text.toList := by
  have hparentheses : parentheses tokens = text.toList.filter isParenthesis := by
    rcases h with rfl | rfl
    · exact parentheses_expressionTokens text
    · exact Token.parentheses_ofText text
  rw [← checkParentheses_filter, ← hparentheses]
  exact map_arrangeFrom [] none tokens

/-- An evaluation fails as the arrangement or as the evaluation of what is arranged. -/
theorem evaluate_eq_error_iff {calculator : Calculator} {text : String} {failure : Failure} :
    calculator.evaluate text = .error failure ↔
      arrange (expressionTokens text) = .error failure ∨
        ∃ rpn, arrange (expressionTokens text) = .ok rpn ∧
          Reckoner.evaluate calculator.bindings rpn = .error failure := by
  change (((arrange (expressionTokens text)).bind fun rpn =>
    .ok (Prepared.mk (Statement.ofTokens (Token.ofText text)).target rpn)).bind fun prepared =>
      (Reckoner.evaluate calculator.bindings prepared.rpn).bind fun value =>
        .ok (value, calculator.commit prepared.target value)) = _ ↔ _
  cases arrange (expressionTokens text) with
  | error reason => simp [Except.bind]
  | ok rpn =>
    change (Reckoner.evaluate calculator.bindings rpn).bind _ = _ ↔ _
    simp [Outcome.bind_eq_error_iff]

/-- An evaluation that does not fail for its syntax fails on what is arranged. -/
theorem exists_arrange_of_evaluate_eq_error {calculator : Calculator} {text : String}
    {failure : Failure} (h : calculator.evaluate text = .error failure)
    (hkind : failure.kind ≠ .syntaxError) :
    ∃ rpn, arrange (expressionTokens text) = .ok rpn ∧
      Reckoner.evaluate calculator.bindings rpn = .error failure := by
  refine (evaluate_eq_error_iff.mp h).resolve_left fun harrange => hkind ?_
  have hread := @map_arrange text _ (.inl rfl)
  rw [harrange] at hread
  exact kind_of_checkParentheses_eq_error hread.symm

/-- A text is rejected for its syntax as its parentheses are. -/
theorem evaluate_eq_syntaxError_iff {calculator : Calculator} {text : String} {failure : Failure}
    (h : failure.kind = .syntaxError) :
    calculator.evaluate text = .error failure ↔
      checkParentheses 0 text.toList = .error failure := by
  rw [← map_arrange (.inl rfl), Outcome.map_eq_error_iff, evaluate_eq_error_iff]
  refine ⟨fun hfails => hfails.resolve_right ?_, .inl⟩
  rintro ⟨rpn, -, hvalue⟩
  exact (kind_of_evaluate_eq_error hvalue).1 h

/-- The front of a text that closes too much is one that closes more than it opens. -/
theorem overcloses_zero_iff {cs : List Char} :
    Overcloses 0 cs ↔ ∃ front, front <+: cs ∧ front.count '(' < front.count ')' := by
  simp only [Overcloses, Nat.zero_add]

section

variable {calculator : Calculator} {text : String}

/-- A text is rejected for an unexpected closing parenthesis if some front of it closes more
parentheses than it opens. -/
theorem evaluate_eq_unexpectedClosing_iff :
    calculator.evaluate text = .error .unexpectedClosing ↔
      ∃ front, front <+: text.toList ∧ front.count '(' < front.count ')' := by
  rw [evaluate_eq_syntaxError_iff rfl, checkParentheses_eq_unexpected_iff, overcloses_zero_iff]

/-- A text is rejected for an unclosed opening parenthesis if no front of it closes more than it
opens, and the text opens more than it closes. -/
theorem evaluate_eq_unclosedOpening_iff :
    calculator.evaluate text = .error .unclosedOpening ↔
      (∀ front, front <+: text.toList → front.count ')' ≤ front.count '(') ∧
        text.toList.count ')' < text.toList.count '(' := by
  rw [evaluate_eq_syntaxError_iff rfl, checkParentheses_eq_unclosed_iff, overcloses_zero_iff]
  simp only [not_exists, not_and, not_lt, Nat.zero_add]

/-- The parentheses of a text can be read exactly if they are balanced. -/
theorem checkParentheses_eq_ok_iff_balanced :
    checkParentheses 0 text.toList = .ok () ↔ Balanced text.toList := by
  rw [checkParentheses_eq_ok_iff, overcloses_zero_iff, Balanced]
  simp only [not_exists, not_and, not_lt, Nat.zero_add]

/-- A text is rejected for its syntax exactly if its parentheses are not balanced. -/
theorem exists_syntaxError_iff :
    (∃ failure, calculator.evaluate text = .error failure ∧ failure.kind = .syntaxError) ↔
      ¬ Balanced text.toList := by
  rw [← checkParentheses_eq_ok_iff_balanced]
  constructor
  · rintro ⟨failure, hfails, hkind⟩ hread
    rw [(evaluate_eq_syntaxError_iff hkind).mp hfails] at hread
    cases hread
  · intro hb
    cases hread : checkParentheses 0 text.toList with
    | ok => exact absurd hread hb
    | error failure =>
      have hkind := kind_of_checkParentheses_eq_error hread
      exact ⟨failure, (evaluate_eq_syntaxError_iff hkind).mpr hread, hkind⟩

/-- The tokens of a balanced text can be arranged, and no parenthesis is among them then. -/
theorem exists_arrange_of_balanced (hb : Balanced text.toList) {tokens : List Token}
    (htokens : tokens = expressionTokens text ∨ tokens = Token.ofText text) :
    ∃ rpn, arrange tokens = .ok rpn ∧
      ∀ token ∈ rpn, token.kind ≠ .opening ∧ token.kind ≠ .closing := by
  have hread := map_arrange htokens
  rw [checkParentheses_eq_ok_iff_balanced.mpr hb] at hread
  obtain ⟨rpn, harrange, -⟩ := Outcome.map_eq_ok_iff.mp hread
  exact ⟨rpn, harrange, fun token ht => not_parenthesis_of_arrange harrange ht⟩

/-- No evaluation of a text meets a parenthesis. -/
theorem evaluate_ne_unexpectedToken (sign : String) :
    calculator.evaluate text ≠ .error (.unexpectedToken sign) := by
  intro hfails
  obtain ⟨rpn, harrange, hvalue⟩ := exists_arrange_of_evaluate_eq_error hfails nofun
  obtain ⟨token, ht, hkind⟩ := (kind_of_evaluate_eq_error hvalue).2 sign rfl
  obtain ⟨hopening, hclosing⟩ := not_parenthesis_of_arrange harrange ht
  exact hkind.elim hopening hclosing

end

/-- A text is rejected for its syntax exactly if its parentheses are unbalanced: for an unexpected
closing one if some front of the text closes more than it opens, and for an unclosed opening one if
no front does and the text opens more than it closes. The tokens of a balanced text can be arranged
without a parenthesis among them, and so no evaluation meets one. -/
theorem rejects_unbalanced (calculator : Calculator) (text : String) :
    (∀ failure, calculator.explain text = .error failure ↔
      calculator.evaluate text = .error failure) ∧
    ((∃ failure, calculator.evaluate text = .error failure ∧ failure.kind = .syntaxError) ↔
      ¬ Balanced text.toList) ∧
    ((∃ failure, calculator.evaluate text = .error failure ∧ failure.kind = .syntaxError ∧
        failure.message = "Mismatched parentheses: unexpected ')'") ↔
      ∃ front, front <+: text.toList ∧ front.count '(' < front.count ')') ∧
    ((∃ failure, calculator.evaluate text = .error failure ∧ failure.kind = .syntaxError ∧
        failure.message = "Mismatched parentheses: unclosed '('") ↔
      (∀ front, front <+: text.toList → front.count ')' ≤ front.count '(') ∧
        text.toList.count ')' < text.toList.count '(') ∧
    (Balanced text.toList → ∀ tokens, tokens = expressionTokens text ∨ tokens = Token.ofText text →
      ∃ rpn, arrange tokens = .ok rpn ∧
        ∀ token ∈ rpn, token.kind ≠ .opening ∧ token.kind ≠ .closing) ∧
    ∀ sign, calculator.evaluate text ≠ .error (.unexpectedToken sign) := by
  refine ⟨fun failure => explain_eq_error_iff, exists_syntaxError_iff, ⟨?_, ?_⟩, ⟨?_, ?_⟩,
    fun hb tokens htokens => exists_arrange_of_balanced hb htokens, evaluate_ne_unexpectedToken⟩
  · rintro ⟨failure, hfails, hkind, hmessage⟩
    obtain rfl | rfl := Failure.kind_eq_syntaxError_iff.mp hkind
    · exact evaluate_eq_unexpectedClosing_iff.mp hfails
    · exact absurd hmessage (by decide)
  · exact fun h => ⟨_, evaluate_eq_unexpectedClosing_iff.mpr h, rfl, rfl⟩
  · rintro ⟨failure, hfails, hkind, hmessage⟩
    obtain rfl | rfl := Failure.kind_eq_syntaxError_iff.mp hkind
    · exact absurd hmessage (by decide)
    · exact evaluate_eq_unclosedOpening_iff.mp hfails
  · exact fun h => ⟨_, evaluate_eq_unclosedOpening_iff.mpr h, rfl, rfl⟩

end Calculator

end Reckoner
