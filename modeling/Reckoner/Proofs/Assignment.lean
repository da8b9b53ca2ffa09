import Reckoner.Proofs.LexemeBoundary
import Reckoner.Proofs.Substitution
import Reckoner.Proofs.TokenUse

/-!
# Assignments

A name and the sign of assignment in front of a text leave the tokens of the text as they are. So an
assignment has the value of its expression, or fails as the expression does; it sets its name only
if there is a value, and the name stands for this value then. A second sign of assignment belongs
to the expression, which fails because of it.
-/

namespace Reckoner

namespace Bindings

/-- Variables before and after a name is set to a value. -/
inductive Sets (name : String) (value : Float) : Bindings → Bindings → Prop where
  /-- A name that is there gets the value in its place. -/
  | replaces (front back : List (String × Float)) (old : Float)
      (first : name ∉ front.map Prod.fst) :
      Sets name value ⟨front ++ (name, old) :: back⟩ ⟨front ++ (name, value) :: back⟩
  /-- A new name comes last. -/
  | appends (entries : List (String × Float)) (new : name ∉ entries.map Prod.fst) :
      Sets name value ⟨entries⟩ ⟨entries ++ [(name, value)]⟩

variable {name : String} {value : Float}

/-- A variable with another name may stand in front. -/
theorem Sets.cons {entries after : List (String × Float)} {entry : String × Float}
    (h : Sets name value ⟨entries⟩ ⟨after⟩) (hkey : name ≠ entry.1) :
    Sets name value ⟨entry :: entries⟩ ⟨entry :: after⟩ := by
  have hfront : ∀ front : List (String × Float), name ∉ front.map Prod.fst →
      name ∉ (entry :: front).map Prod.fst := by
    intro front hfront
    rw [List.map_cons, List.mem_cons, not_or]
    exact ⟨hkey, hfront⟩
  cases h with
  | replaces front back old first => exact .replaces (entry :: front) back old (hfront front first)
  | appends entries new => exact .appends (entry :: entries) (hfront entries new)

/-- Setting a name replaces its value, or adds the name at the end. -/
theorem sets_set (bindings : Bindings) (name : String) (value : Float) :
    Sets name value bindings (bindings.set name value) := by
  obtain ⟨entries⟩ := bindings
  change Sets name value ⟨entries⟩ ⟨setEntry name value entries⟩
  induction entries with
  | nil => exact .appends [] List.not_mem_nil
  | cons entry entries ih =>
    obtain ⟨key, old⟩ := entry
    rw [setEntry]
    by_cases hkey : name = key
    · subst hkey
      rw [if_pos (beq_self_eq_true name)]
      exact .replaces [] entries old List.not_mem_nil
    · have hbeq : (key == name) = false := beq_eq_false_iff_ne.mpr (Ne.symm hkey)
      rw [if_neg (by simp [hbeq])]
      exact ih.cons hkey

end Bindings

/-- A name with the sign of assignment in front of a text are two more tokens. -/
theorem Token.ofText_assignment {name : String} (h : IsName name.toList) (text : String) :
    ofText (name ++ " = " ++ text) = .identifier name :: .operator "=" :: ofText text := by
  have hsign : IsSign ['='] := .inr ⟨'=', rfl, by decide⟩
  have htext : (name ++ " = " ++ text).toList =
      name.toList ++ ' ' :: (['='] ++ ' ' :: text.toList) := by
    simp
  have hname : scan name.toList = [.identifier name] := ofText_of_isName h
  have hequals : scan ['='] = [.operator "="] := @scan_of_isValid (.operator "=") hsign
  rw [ofText, htext, scan_append_space, scan_append_space, hname, hequals]
  rfl

namespace Calculator

/-- What is assigned is the expression behind the sign. -/
theorem targetOf_assignment {name : String} (h : Token.IsName name.toList) (text : String) :
    targetOf (name ++ " = " ++ text) = some name ∧
      expressionTokens (name ++ " = " ++ text) = Token.ofText text := by
  have hstatement : Statement.ofTokens (.identifier name :: .operator "=" :: Token.ofText text) =
      ⟨some name, Token.ofText text⟩ := by
    simp [Statement.ofTokens, Statement.targetOf?, Token.identifier, Token.operator]
  rw [targetOf, expressionTokens, Token.ofText_assignment h, hstatement]
  exact ⟨rfl, rfl⟩

/-- The value or the failure of a text is that of its expression. -/
theorem map_fst_evaluate (calculator : Calculator) (text : String) :
    (calculator.evaluate text).map Prod.fst =
      (Rpn.arrange (expressionTokens text)).bind (Reckoner.evaluate calculator.bindings) := by
  change ((prepare text).bind fun prepared =>
    (Reckoner.evaluate calculator.bindings prepared.rpn).bind fun value =>
      .ok (value, calculator.commit prepared.target value)).map Prod.fst = _
  change (((Rpn.arrange (expressionTokens text)).bind fun rpn =>
    .ok (Prepared.mk (targetOf text) rpn)).bind _).map _ = _
  cases Rpn.arrange (expressionTokens text) with
  | error failure => rfl
  | ok rpn =>
    change ((Reckoner.evaluate calculator.bindings rpn).bind _).map _ =
      Reckoner.evaluate calculator.bindings rpn
    cases Reckoner.evaluate calculator.bindings rpn <;> rfl

/-- A text that fails leaves the calculator as it was. -/
theorem after_of_error {calculator : Calculator} {text : String} {failure : Failure}
    (h : calculator.evaluate text = .error failure) : calculator.after text = calculator := by
  rw [after, h]

/-- An assignment of a text that assigns nothing has the text's value or failure. With a value it
sets the name, and the name has the value then; without one it leaves the variables as they were. An
assignment of an assignment fails, and leaves them so, too. -/
theorem evaluate_assignment (calculator : Calculator) {name : String}
    (hname : Token.IsName name.toList) (text : String) :
    (targetOf text = none →
      (calculator.evaluate (name ++ " = " ++ text)).map Prod.fst =
        (calculator.evaluate text).map Prod.fst ∧
      (∀ value after, calculator.evaluate (name ++ " = " ++ text) = .ok (value, after) →
        Bindings.Sets name value calculator.bindings after.bindings ∧
          after.evaluate name = .ok (value, after)) ∧
      ∀ failure, calculator.evaluate (name ++ " = " ++ text) = .error failure →
        calculator.after (name ++ " = " ++ text) = calculator) ∧
    ((targetOf text).isSome →
      (∃ failure, calculator.evaluate (name ++ " = " ++ text) = .error failure) ∧
        calculator.after (name ++ " = " ++ text) = calculator) := by
  obtain ⟨htarget, htokens⟩ := targetOf_assignment hname text
  refine ⟨fun hplain => ⟨?_, ?_, fun failure => after_of_error⟩, fun hassigns => ?_⟩
  · rw [map_fst_evaluate, map_fst_evaluate, htokens, expressionTokens_of_plain hplain]
  · intro value after hvalue
    obtain ⟨rpn, -, -, rfl⟩ := evaluate_eq_ok_iff.mp hvalue
    rw [← targetOf, htarget]
    refine ⟨Bindings.sets_set calculator.bindings name value, evaluate_name hname ?_⟩
    rw [commit, Bindings.get?_set, if_pos rfl]
  · obtain ⟨inner, hinner⟩ := Option.isSome_iff_exists.mp hassigns
    have hsign : .operator "=" ∈ expressionTokens (name ++ " = " ++ text) := by
      rw [htokens, ofText_eq, ← targetOf, hinner]
      exact List.mem_cons_of_mem _ List.mem_cons_self
    cases hevaluate : calculator.evaluate (name ++ " = " ++ text) with
    | error failure => exact ⟨⟨failure, rfl⟩, after_of_error hevaluate⟩
    | ok result => exact absurd hsign (assignment_not_mem hevaluate)

/-- A negative is assigned in the place of an old value; an assignment of an assignment fails. -/
theorem evaluate_assignment_negative :
    Token.IsName "x".toList ∧
    (∃ value after, evaluate ⟨⟨[("x", 1), ("y", 3)]⟩⟩ "x = -y" = .ok (value, after) ∧
      (evaluate ⟨⟨[("x", 1), ("y", 3)]⟩⟩ "-y").map Prod.fst = .ok value ∧
      Bindings.Sets "x" value ⟨[("x", 1), ("y", 3)]⟩ after.bindings ∧
      after.evaluate "x" = .ok (value, after)) ∧
    ∃ failure, evaluate ⟨⟨[("x", 1), ("y", 3)]⟩⟩ "x = y = 2" = .error failure := by
  have hname : Token.IsName "x".toList := ⟨'x', [], rfl, rfl, List.forall_mem_nil _⟩
  have hplain : targetOf "-y" = none := by decide +kernel
  have hassigns : (targetOf "y = 2").isSome := by decide +kernel
  have hok : (evaluate ⟨⟨[("x", 1), ("y", 3)]⟩⟩ "x = -y").isOk = true := by decide +kernel
  obtain ⟨hsame, hsets, -⟩ :=
    (evaluate_assignment ⟨⟨[("x", 1), ("y", 3)]⟩⟩ hname "-y").1 hplain
  obtain ⟨hfails, -⟩ :=
    (evaluate_assignment ⟨⟨[("x", 1), ("y", 3)]⟩⟩ hname "y = 2").2 hassigns
  change (evaluate ⟨⟨[("x", 1), ("y", 3)]⟩⟩ "x = -y").map Prod.fst = _ at hsame
  obtain ⟨⟨value, after⟩, hvalue⟩ := Outcome.isOk_iff.mp hok
  rw [hvalue] at hsame
  exact ⟨hname, ⟨value, after, hvalue, hsame.symm, hsets value after hvalue⟩, hfails⟩

end Calculator

end Reckoner
