import Reckoner.Proofs.Denotation
import Reckoner.Proofs.LexemeBoundary
import Reckoner.Proofs.Substitution

/-!
# Truth values

Every operand but zero counts as true, and what the logical operators give back counts as what it
stands for. So they obey the laws of truth, whatever the operands are, a zero with a sign and what
is no number included. The laws hold of texts, too: a text in parentheses is one operand, and a sign
in front of it binds tighter than any other one.
-/

namespace Reckoner

/-- Whether an operand counts as true. -/
def countsAsTrue (a : Float) : Bool :=
  a != 0

/-- One counts as true and zero as false. -/
@[simp] theorem countsAsTrue_truth (b : Bool) : countsAsTrue (truth b) = b := by
  cases b <;> decide

/-- A truth value is zero or one. -/
theorem truth_mem (b : Bool) : truth b ∈ [(0 : Float), 1] := by
  cases b <;> simp [truth]

/-- What is equal to zero does not count as true. -/
theorem apply_not (a : Float) : UnaryOperation.not.apply a = truth (!countsAsTrue a) :=
  congrArg truth (Bool.not_not (a == 0)).symm

/-- The signs of the logical operators between two operands, and those of equality. -/
def truthSigns : List String := ["||", "&&", "==", "!="]

/-- They are lexemes, and bind looser than a sign in front of an operand. -/
theorem isSign_of_mem_truthSigns {sign : String} (h : sign ∈ truthSigns) :
    Token.IsSign sign.toList ∧ 0 ≤ Operator.precedenceOf sign ∧ Operator.precedenceOf sign < 7 := by
  simp only [truthSigns, List.mem_cons, List.not_mem_nil, or_false] at h
  rcases h with rfl | rfl | rfl | rfl
  · exact ⟨.inl ⟨'|', '|', rfl, rfl⟩, by decide, by decide⟩
  · exact ⟨.inl ⟨'&', '&', rfl, rfl⟩, by decide, by decide⟩
  · exact ⟨.inl ⟨'=', '=', rfl, rfl⟩, by decide, by decide⟩
  · exact ⟨.inl ⟨'!', '=', rfl, rfl⟩, by decide, by decide⟩

/-- Tokens that do not begin with a name assign nothing. -/
theorem targetOf?_eq_none {head : Token} (h : head.kind ≠ .identifier) (tokens : List Token) :
    Statement.targetOf? (head :: tokens) = none := by
  cases tokens with
  | nil => rfl
  | cons sign tokens => rw [Statement.targetOf?, if_neg fun hname => h hname.1]

/-- A row that can be arranged is read as one operand in parentheses. -/
theorem Rpn.readsAs_enclose {tokens output : List Token} (h : arrange tokens = .ok output) :
    ReadsAs 7 (Token.enclose tokens) output := by
  intro waiting previous rest hw _ _
  refine ⟨output, [], .closing, (List.append_nil output).symm, nofun, rfl, ?_⟩
  rw [Token.enclose, List.cons_append, List.append_assoc, List.singleton_append,
    arrangeFrom_group h fun top ht => (hw top ht).1]
  rfl

/-- Operands of the tightest level are read on both sides of a sign of a looser one. -/
theorem Rpn.readsAs_joined {sign : String} {before behind left right : List Token}
    (hknown : 0 ≤ Operator.precedenceOf sign) (hloose : Operator.precedenceOf sign < 7)
    (hl : ReadsAs 7 before left) (hr : ReadsAs 7 behind right) :
    ReadsAs 0 (before ++ .operator sign :: behind) (left ++ right ++ [.operator sign]) := by
  refine readsAs_between (by decide) (by decide) hknown ?_ ?_ hl hr
  · intro other ho
    rw [yields_operator]
    omega
  · intro other ho
    rw [Bool.eq_false_iff, Ne, yields_operator]
    omega

/-- Characters that begin with a parenthesis or a sign in front, and are read as an expression of a
level that has a value. -/
structure Denotes (bindings : Bindings) (level : Int) (cs : List Char) (value : Float) : Prop where
  /-- They begin with an opening parenthesis or with the sign that negates truth. -/
  front : ∃ c ∈ ['(', '!'], ∃ rest, cs = c :: rest
  /-- Their tokens are read as the output whose run puts down the value. -/
  reads : ∃ output, Rpn.ReadsAs level (Token.scan cs) output ∧ evaluate bindings output = .ok value

namespace Denotes

variable {bindings : Bindings} {level : Int} {cs left right : List Char} {a b value : Float}

/-- A row of characters with a value has it in parentheses. -/
theorem of_arrange {output : List Token} (harrange : Rpn.arrange (Token.scan cs) = .ok output)
    (hvalue : evaluate bindings output = .ok value) :
    Denotes bindings 7 ('(' :: (cs ++ [')'])) value where
  front := ⟨'(', List.mem_cons_self, _, rfl⟩
  reads := by
    have hscan := Token.scan_append_group [] cs
    rw [Token.scan_nil, List.nil_append, List.nil_append] at hscan
    rw [hscan]
    exact ⟨output, Rpn.readsAs_enclose harrange, hvalue⟩

/-- An expression has its value in parentheses. -/
theorem group (h : Denotes bindings level cs value) :
    Denotes bindings 7 ('(' :: (cs ++ [')'])) value := by
  obtain ⟨output, hreads, hvalue⟩ := h.reads
  exact of_arrange hreads.arrange hvalue

/-- The sign in front of an operand negates its truth. -/
theorem not (h : Denotes bindings 7 cs a) :
    Denotes bindings 7 ('!' :: cs) (truth (!countsAsTrue a)) where
  front := ⟨'!', List.mem_cons_of_mem _ List.mem_cons_self, _, rfl⟩
  reads := by
    obtain ⟨output, hreads, hvalue⟩ := h.reads
    have hscan : Token.scan ('!' :: cs) = .operator "!" :: Token.scan cs := by
      obtain ⟨c, hc, rest, rfl⟩ := h.front
      have hextent : Token.extent '!' (c :: rest) = (.operator, 0) := by
        rcases List.mem_pair.mp hc with rfl | rfl <;> rfl
      rw [Token.scan_cons_of_not_isBlank rfl, hextent]
      rfl
    have hnegates : (Operator.find? "!").map Operator.operation = some (.unary .not) := rfl
    refine ⟨output ++ [.operator "!"], ?_, ?_⟩
    · rw [hscan]
      exact Rpn.readsAs_front rfl rfl hreads
    · rw [evaluate_eq_ok_iff, Evaluation.runFrom_append, Evaluation.runFrom_of_evaluate hvalue,
        ← apply_not]
      exact Evaluation.runFrom_sign_front hnegates a []

/-- A sign between two operands has the value of its operator on theirs. -/
theorem joined {sign : String} (hsign : sign ∈ truthSigns) (hl : Denotes bindings 7 left a)
    (hr : Denotes bindings 7 right b) (hvalue : applyOperator sign a b = .ok value) :
    Denotes bindings 0 (left ++ ' ' :: (sign.toList ++ ' ' :: right)) value where
  front := by
    obtain ⟨c, hc, rest, rfl⟩ := hl.front
    exact ⟨c, hc, _, rfl⟩
  reads := by
    obtain ⟨before, hbefore, ha⟩ := hl.reads
    obtain ⟨behind, hbehind, hb⟩ := hr.reads
    obtain ⟨hlexeme, hknown, hloose⟩ := isSign_of_mem_truthSigns hsign
    have htoken : Token.scan sign.toList = [.operator sign] :=
      @Token.scan_of_isValid (.operator sign) hlexeme
    refine ⟨before ++ behind ++ [.operator sign], ?_, ?_⟩
    · rw [Token.scan_append_space, Token.scan_append_space, htoken]
      exact Rpn.readsAs_joined hknown hloose hbefore hbehind
    · have hleft : Evaluation.runFrom bindings [] before = .ok [a] :=
        Evaluation.runFrom_of_evaluate ha []
      have hright : Evaluation.runFrom bindings [a] behind = .ok [b, a] :=
        Evaluation.runFrom_of_evaluate hb [a]
      have hboth : Evaluation.runFrom bindings [] (before ++ behind) = .ok [b, a] := by
        rw [Evaluation.runFrom_append, hleft]
        exact hright
      rw [evaluate_eq_ok_iff, Evaluation.runFrom_append, hboth]
      change Evaluation.runFrom bindings [b, a] [.operator sign] = _
      rw [Evaluation.runFrom_sign_between hloose, hvalue]
      rfl

/-- Characters that begin in front of an operand make a text that assigns nothing. -/
theorem target_eq_none (h : Denotes bindings level cs value) :
    (Statement.ofTokens (Token.scan cs)).target = none := by
  obtain ⟨c, hc, rest, rfl⟩ := h.front
  obtain ⟨hblank, hkind⟩ : Text.isBlank c = false ∧ (Token.extent c rest).1 ≠ .identifier := by
    rcases List.mem_pair.mp hc with rfl | rfl
    · exact ⟨rfl, nofun⟩
    · have hextent : Token.extent '!' rest =
          if rest.head?.any (Token.isDoubleSign '!') then (.operator, 1) else (.operator, 0) := rfl
      refine ⟨rfl, ?_⟩
      rw [hextent]
      split <;> nofun
  rw [Token.scan_cons_of_not_isBlank hblank, Statement.ofTokens, targetOf?_eq_none hkind]

/-- A text of such characters has the value, and asking for it changes nothing. -/
theorem evaluate {calculator : Calculator} {text : String}
    (h : Denotes calculator.bindings level cs value) (htext : text.toList = cs) :
    calculator.evaluate text = .ok (value, calculator) := by
  subst htext
  obtain ⟨output, hreads, hvalue⟩ := h.reads
  have htarget : Calculator.targetOf text = none := h.target_eq_none
  refine Calculator.evaluate_eq_ok_iff.mpr ⟨output, ?_, hvalue, ?_⟩
  · rw [Calculator.expressionTokens_of_plain htarget]
    exact hreads.arrange
  · rw [← Calculator.targetOf, htarget]
    rfl

end Denotes

namespace Calculator

/-- Two texts have the same truth value, zero or one, and asking for either changes nothing. -/
def SameTruth (calculator : Calculator) (text other : String) : Prop :=
  ∃ value ∈ [(0 : Float), 1], calculator.evaluate text = .ok (value, calculator) ∧
    calculator.evaluate other = .ok (value, calculator)

/-- Texts that denote a truth value have it both. -/
theorem sameTruth {calculator : Calculator} {level level' : Int} {text other : String}
    {cs cs' : List Char} {b : Bool} (h : Denotes calculator.bindings level cs (truth b))
    (hother : Denotes calculator.bindings level' cs' (truth b)) (htext : text.toList = cs)
    (htext' : other.toList = cs') : calculator.SameTruth text other :=
  ⟨truth b, truth_mem b, h.evaluate htext, hother.evaluate htext'⟩

/-- A text that assigns nothing denotes its value in parentheses. -/
theorem denotes_group {calculator after : Calculator} {text : String} {value : Float}
    (hplain : targetOf text = none) (hvalue : calculator.evaluate text = .ok (value, after)) :
    Denotes calculator.bindings 7 ('(' :: (text.toList ++ [')'])) value := by
  obtain ⟨output, harrange, hvalue, -⟩ := evaluate_eq_ok_iff.mp hvalue
  rw [expressionTokens_of_plain hplain] at harrange
  exact .of_arrange harrange hvalue

/-- Let two texts have values. What negates that both count as true says the same as that one of
their negations does, and the other way round; one of a text and its negation counts as true and not
both do; three negations are one; and difference is the negation of equality. All these give zero
or one. -/
theorem obeys_truth {calculator after after' : Calculator} {text text' : String} {a b : Float}
    (hplain : targetOf text = none) (hvalue : calculator.evaluate text = .ok (a, after))
    (hplain' : targetOf text' = none) (hvalue' : calculator.evaluate text' = .ok (b, after')) :
    calculator.SameTruth ("!((" ++ text ++ ") && (" ++ text' ++ "))")
        ("!(" ++ text ++ ") || !(" ++ text' ++ ")") ∧
      calculator.SameTruth ("!((" ++ text ++ ") || (" ++ text' ++ "))")
        ("!(" ++ text ++ ") && !(" ++ text' ++ ")") ∧
      calculator.evaluate ("(" ++ text ++ ") || !(" ++ text ++ ")") = .ok (1, calculator) ∧
      calculator.evaluate ("(" ++ text ++ ") && !(" ++ text ++ ")") = .ok (0, calculator) ∧
      calculator.SameTruth ("!!!(" ++ text ++ ")") ("!(" ++ text ++ ")") ∧
      calculator.SameTruth ("(" ++ text ++ ") != (" ++ text' ++ ")")
        ("!((" ++ text ++ ") == (" ++ text' ++ "))") := by
  have hA := denotes_group hplain hvalue
  have hB := denotes_group hplain' hvalue'
  have hand : ∀ x y, applyOperator "&&" x y = .ok (truth (countsAsTrue x && countsAsTrue y)) :=
    fun _ _ => rfl
  have hor : ∀ x y, applyOperator "||" x y = .ok (truth (countsAsTrue x || countsAsTrue y)) :=
    fun _ _ => rfl
  have hequal : applyOperator "==" a b = .ok (truth (a == b)) := rfl
  have hdiffer : applyOperator "!=" a b = .ok (truth (!(a == b))) := rfl
  refine ⟨?_, ?_, ?_, ?_, ?_, ?_⟩
  · have hleft := (Denotes.joined (by decide) hA hB (hand a b)).group.not
    have hright := Denotes.joined (by decide) hA.not hB.not (hor _ _)
    simp only [countsAsTrue_truth, Bool.not_and] at hleft hright
    exact sameTruth hleft hright (by simp) (by simp)
  · have hleft := (Denotes.joined (by decide) hA hB (hor a b)).group.not
    have hright := Denotes.joined (by decide) hA.not hB.not (hand _ _)
    simp only [countsAsTrue_truth, Bool.not_or] at hleft hright
    exact sameTruth hleft hright (by simp) (by simp)
  · have heither := Denotes.joined (by decide) hA hA.not (hor _ _)
    rw [countsAsTrue_truth, Bool.or_not_self] at heither
    exact heither.evaluate (by simp)
  · have hboth := Denotes.joined (by decide) hA hA.not (hand _ _)
    rw [countsAsTrue_truth, Bool.and_not_self] at hboth
    exact hboth.evaluate (by simp)
  · have hthree := hA.not.not.not
    rw [countsAsTrue_truth, countsAsTrue_truth, Bool.not_not] at hthree
    exact sameTruth hthree hA.not (by simp) (by simp)
  · have hleft := Denotes.joined (by decide) hA hB hdiffer
    have hright := (Denotes.joined (by decide) hA hB hequal).group.not
    rw [countsAsTrue_truth] at hright
    exact sameTruth hleft hright (by simp) (by simp)

/-- They hold of what is no number and of a zero with a sign. -/
theorem obeys_truth_notANumber :
    (evaluate ⟨⟨[("x", 0 / 0)]⟩⟩ "x").isOk = true ∧
    (evaluate ⟨⟨[("x", 0 / 0)]⟩⟩ "-0").isOk = true ∧
    SameTruth ⟨⟨[("x", 0 / 0)]⟩⟩ "!((x) && (-0))" "!(x) || !(-0)" ∧
    evaluate ⟨⟨[("x", 0 / 0)]⟩⟩ "(x) || !(x)" = .ok (1, ⟨⟨[("x", 0 / 0)]⟩⟩) ∧
    SameTruth ⟨⟨[("x", 0 / 0)]⟩⟩ "(x) != (-0)" "!((x) == (-0))" := by
  have hok : (evaluate ⟨⟨[("x", 0 / 0)]⟩⟩ "x").isOk = true := by decide +kernel
  have hok' : (evaluate ⟨⟨[("x", 0 / 0)]⟩⟩ "-0").isOk = true := by decide +kernel
  have hplain : targetOf "x" = none := by decide +kernel
  have hplain' : targetOf "-0" = none := by decide +kernel
  obtain ⟨_, hvalue⟩ := Outcome.isOk_iff.mp hok
  obtain ⟨_, hvalue'⟩ := Outcome.isOk_iff.mp hok'
  obtain ⟨hand, -, heither, -, -, hdiffer⟩ := obeys_truth hplain hvalue hplain' hvalue'
  exact ⟨hok, hok', hand, heither, hdiffer⟩

end Calculator

end Reckoner
