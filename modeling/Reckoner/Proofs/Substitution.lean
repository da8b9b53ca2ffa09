import Reckoner.Proofs.Acceptance
import Reckoner.Proofs.Enclosure
import Reckoner.Proofs.Waiting

/-!
# Names for subexpressions

A variable and a text with its value are interchangeable: where a row of tokens mentions the
variable, it may hold the tokens of the text in parentheses. The two rows are arranged in step, over
the same stack, and their arrangements differ only in that one has the arrangement of the text where
the other has the name. On the stack of values both leave the value. So the rows have the same value
or fail alike, whatever else they hold.
-/

namespace Reckoner.Token

/-- Tokens with a row in the place of every occurrence of one of them. -/
def replace (token : Token) (row tokens : List Token) : List Token :=
  tokens.flatMap fun other => if other = token then row else [other]

/-- Tokens with a row in the place of every occurrence of a name. -/
def replaceName (name : String) (row tokens : List Token) : List Token :=
  replace (.identifier name) row tokens

/-- A row of tokens in parentheses. -/
def enclose (row : List Token) : List Token :=
  .opening :: (row ++ [.closing])

/-- A name that no opening parenthesis stands directly behind and no name directly before. -/
def StandsAlone (name : String) (tokens : List Token) : Prop :=
  tokens.IsChain fun before behind =>
    (before = .identifier name → behind.kind ≠ .opening) ∧
      (behind = .identifier name → before.kind ≠ .identifier)

variable {token : Token} {row tokens : List Token}

/-- The row stands in the place of the token. -/
theorem replace_self (token : Token) (row tokens : List Token) :
    replace token row (token :: tokens) = row ++ replace token row tokens := by
  rw [replace, List.flatMap_cons, if_pos rfl]
  rfl

/-- Every other token stays. -/
theorem replace_cons {other : Token} (h : other ≠ token) (row tokens : List Token) :
    replace token row (other :: tokens) = other :: replace token row tokens := by
  rw [replace, List.flatMap_cons, if_neg h]
  rfl

/-- Tokens among which it is not stay as they are. -/
theorem replace_of_notMem (h : token ∉ tokens) : replace token row tokens = tokens := by
  induction tokens with
  | nil => rfl
  | cons other tokens ih =>
    have hne : other ≠ token := fun he => h (he ▸ List.mem_cons_self)
    rw [replace_cons hne, ih fun hm => h (List.mem_cons_of_mem _ hm)]

/-- It is replaced in each part of a row. -/
theorem replace_append (front back : List Token) :
    replace token row (front ++ back) = replace token row front ++ replace token row back :=
  List.flatMap_append

/-- A row that does not begin with it keeps its first token. -/
theorem head?_replace (h : tokens.head? ≠ some token) :
    (replace token row tokens).head? = tokens.head? := by
  cases tokens with
  | nil => rfl
  | cons other tokens =>
    have hne : other ≠ token := fun he => h (congrArg some he)
    rw [replace_cons hne]
    rfl

end Reckoner.Token

namespace Reckoner.Rpn

open Token

section

variable {name : String} {waiting moved after tokens row output : List Token}
  {previous previous' next : Option Token} {token : Token}

/-- A number or a name comes out for its own token only. -/
theorem notMem_reading {operand : Token}
    (hkind : operand.kind = .number ∨ operand.kind = .identifier) (h : token ≠ operand)
    (previous : Option Token) : operand ∉ reading previous token := by
  intro hm
  have hself : reading previous token = [token] := by
    rw [(kind_of_mem_reading hm).1] at hkind
    rcases hkind with hk | hk <;> rw [reading, hk]
  rw [hself, List.mem_singleton] at hm
  exact h hm.symm

/-- Only its own token moves a number or a name out or leaves it waiting. -/
theorem Moves.notMem {operand : Token} (h : Moves waiting previous token next moved after)
    (hkind : operand.kind = .number ∨ operand.kind = .identifier) (hw : operand ∉ waiting)
    (ht : token ≠ operand) : operand ∉ moved ∧ operand ∉ after := by
  have hopening : isOpening operand = false := by
    rcases hkind with hk | hk <;> exact isOpening_of_kind hk
  have hfree : operand ∉ moved ++ after := by
    intro hm
    rcases h.mem_of_mem hopening hm with hm | hm
    · exact hw hm
    · exact notMem_reading hkind ht previous hm
  rw [List.mem_append, not_or] at hfree
  exact hfree

/-- A number or a name that comes out for some tokens is among them. -/
theorem mem_of_mem_readings {operand : Token}
    (hkind : operand.kind = .number ∨ operand.kind = .identifier)
    (h : operand ∈ readings previous tokens) : operand ∈ tokens := by
  obtain ⟨token, hm, before, hreading⟩ := exists_mem_of_mem_readings h
  have htoken : token = operand := by
    by_contra hne
    exact notMem_reading hkind hne before hreading
  exact htoken ▸ hm

/-- A name that stands alone is followed by no opening parenthesis. -/
theorem isOpening_behind (h : StandsAlone name (.identifier name :: tokens)) :
    tokens.head?.any isOpening = false := by
  cases tokens with
  | nil => rfl
  | cons behind tokens =>
    have hkind := (List.isChain_cons_cons.mp h).1.1 rfl
    simpa [isOpening] using hkind

/-- A name that stands alone moves out at once. -/
theorem step_name (h : StandsAlone name (.identifier name :: tokens)) :
    step waiting previous (.identifier name) tokens.head? =
      .ok ([.identifier name], waiting) := by
  change (if tokens.head?.any isOpening then _ else _) = _
  rw [isOpening_behind h, if_neg Bool.false_ne_true]

/-- The replacement of a name that stands alone changes no other token's step. -/
theorem step_replace (h : StandsAlone name (token :: tokens))
    (hp : isFrontPosition previous = isFrontPosition previous') :
    step waiting previous token tokens.head? =
      step waiting previous' token (replace (.identifier name) row tokens).head? := by
  refine step_congr hp fun hk => ?_
  have hhead : tokens.head? ≠ some (.identifier name) := by
    intro hhead
    obtain ⟨behind, rfl⟩ := List.head?_eq_some_iff.mp hhead
    exact (List.isChain_cons_cons.mp h).1.2 rfl hk
  rw [head?_replace hhead]

/-- Tokens are arranged in step with those that have a row in parentheses in the place of a name:
the name comes out of the one where the arrangement of the row comes out of the other. -/
theorem arrangeFrom_replace (hrow : arrange row = .ok output)
    (halone : StandsAlone name tokens) (hp : isFrontPosition previous = isFrontPosition previous')
    (hseat : Seated waiting tokens.head?) (hfree : .identifier name ∉ waiting) :
    arrangeFrom waiting previous' (replace (.identifier name) (enclose row) tokens) =
      (arrangeFrom waiting previous tokens).map (replace (.identifier name) output) := by
  induction tokens generalizing waiting previous previous' with
  | nil =>
    change drain waiting = (drain waiting).map (replace (.identifier name) output)
    unfold drain
    split
    next => rfl
    next => rw [Except.map, replace_of_notMem hfree]
  | cons token tokens ih =>
    have hrest : StandsAlone name tokens := (List.isChain_cons.mp halone).2
    by_cases ht : token = .identifier name
    · -- the row leaves the stack as the name does, and no sign is read differently behind it
      subst ht
      have huncalled := hseat.uncalled rfl
      have hgroup : arrangeFrom waiting previous'
          (.opening :: (row ++ .closing :: replace (.identifier name) (enclose row) tokens)) =
            (arrangeFrom waiting (some .closing)
              (replace (.identifier name) (enclose row) tokens)).map (output ++ ·) :=
        arrangeFrom_group hrow huncalled _
      have hfollow : arrangeFrom waiting (some .closing)
          (replace (.identifier name) (enclose row) tokens) =
            (arrangeFrom waiting (some (.identifier name)) tokens).map
              (replace (.identifier name) output) :=
        ih hrest rfl (seated_of_uncalled huncalled hseat.chain _) hfree
      rw [replace_self, enclose, List.cons_append, List.append_assoc, List.singleton_append,
        ← enclose, hgroup, hfollow, arrangeFrom_cons (step_name halone)]
      cases arrangeFrom waiting (some (.identifier name)) tokens with
      | error failure => rfl
      | ok rest =>
        change Except.ok _ =
          Except.ok (replace (.identifier name) output (.identifier name :: rest))
        rw [replace_self]
    · have hstep : step waiting previous token tokens.head? =
          step waiting previous' token (replace (.identifier name) (enclose row) tokens).head? :=
        step_replace halone hp
      rw [replace_cons ht]
      cases hs : step waiting previous token tokens.head? with
      | error failure =>
        rw [hs] at hstep
        rw [arrangeFrom, arrangeFrom, hs, ← hstep]
        rfl
      | ok result =>
        obtain ⟨moved, after⟩ := result
        have hmoves := moves_of_step hs
        obtain ⟨hmoved, hafter⟩ := hmoves.notMem (.inr rfl) hfree ht
        have hfollow : arrangeFrom after (some token)
            (replace (.identifier name) (enclose row) tokens) =
              (arrangeFrom after (some token) tokens).map (replace (.identifier name) output) :=
          ih hrest rfl (hmoves.seated hseat) hafter
        rw [hs] at hstep
        rw [arrangeFrom_cons hs, arrangeFrom_cons hstep.symm, hfollow]
        cases arrangeFrom after (some token) tokens with
        | error failure => rfl
        | ok rest =>
          change Except.ok _ = Except.ok (replace (.identifier name) output (moved ++ rest))
          rw [replace_append, replace_of_notMem hmoved]

end

end Reckoner.Rpn

namespace Reckoner.Evaluation

open Token

variable {bindings : Bindings} {name : String} {value : Float}

/-- Setting a name changes what the name stands for, and no other token. -/
theorem ofToken_set {token : Token} (h : token ≠ .identifier name) :
    Instruction.ofToken (bindings.set name value) token = Instruction.ofToken bindings token := by
  refine ofToken_congr fun other hother => ?_
  have hne : other ≠ name := by
    rintro rfl
    exact h hother
  rw [Bindings.get?_set, if_neg hne]

/-- A name that is set to the value of a row does to the stack what the row does. -/
theorem runFrom_replace {row : List Token} (h : evaluate bindings row = .ok value)
    (stack : List Float) (rpn : List Token) :
    runFrom bindings stack (replace (.identifier name) row rpn) =
      runFrom (bindings.set name value) stack rpn := by
  induction rpn generalizing stack with
  | nil => rfl
  | cons token rpn ih =>
    by_cases ht : token = .identifier name
    · subst ht
      have hname : Instruction.ofToken (bindings.set name value) (.identifier name) =
          .ok (.recall name value) :=
        ofToken_eq_ok_iff.mpr (.recalled rfl (by simp [Token.identifier]))
      rw [replace_self, runFrom_append, runFrom_of_evaluate h, runFrom, hname]
      exact ih (value :: stack)
    · rw [replace_cons ht, runFrom, runFrom, ofToken_set ht]
      cases Instruction.ofToken bindings token with
      | error failure => rfl
      | ok instruction =>
        change (instruction.execute stack).bind _ = (instruction.execute stack).bind _
        cases instruction.execute stack with
        | error failure => rfl
        | ok after => exact ih after

end Reckoner.Evaluation

namespace Reckoner.Calculator

open Token

/-- The tokens of a text that assigns nothing are all of its expression. -/
theorem expressionTokens_of_plain {text : String}
    (h : (Statement.ofTokens (Token.ofText text)).target = none) :
    expressionTokens text = Token.ofText text := by
  unfold expressionTokens
  unfold Statement.ofTokens at h ⊢
  split at h
  next => cases h
  next => rfl

/-- Let a text have a value. Tokens in which a name stands for this value have the same value, or
fail for the same reason, as the tokens with the text in parentheses in the place of the name. -/
theorem evaluate_replaceName {calculator after : Calculator} {text name : String} {value : Float}
    {tokens : List Token} (hplain : (Statement.ofTokens (Token.ofText text)).target = none)
    (hvalue : calculator.evaluate text = .ok (value, after)) (halone : StandsAlone name tokens) :
    (Rpn.arrange tokens).bind (Reckoner.evaluate (calculator.bindings.set name value)) =
      (Rpn.arrange (replaceName name (enclose (Token.ofText text)) tokens)).bind
        (Reckoner.evaluate calculator.bindings) := by
  obtain ⟨row, harrange, hrow, -⟩ := evaluate_eq_ok_iff.mp hvalue
  rw [expressionTokens_of_plain hplain] at harrange
  have hstep : Rpn.arrange (replace (.identifier name) (enclose (Token.ofText text)) tokens) =
      (Rpn.arrange tokens).map (replace (.identifier name) row) :=
    Rpn.arrangeFrom_replace harrange halone rfl (Rpn.seated_nil _) List.not_mem_nil
  rw [replaceName, hstep]
  cases Rpn.arrange tokens with
  | error failure => rfl
  | ok rpn =>
    change (Evaluation.runFrom _ [] rpn).bind Evaluation.onlyValue =
      (Evaluation.runFrom _ [] (replace (.identifier name) row rpn)).bind Evaluation.onlyValue
    rw [Evaluation.runFrom_replace hrow]

/-- The new value of a name may be named by the old one, in a row that lacks an operand, too. -/
theorem evaluate_negated_name :
    (Rpn.arrange [.operator "-", .identifier "y", .operator "^", .identifier "y",
        .operator "*"]).bind (Reckoner.evaluate (Bindings.set ⟨[("y", 3)]⟩ "y" (-3))) =
      (Rpn.arrange [.operator "-", .opening, .operator "-", .identifier "y", .closing,
        .operator "^", .opening, .operator "-", .identifier "y", .closing, .operator "*"]).bind
        (Reckoner.evaluate ⟨[("y", 3)]⟩) := by
  have htokens : Token.ofText "-y" = [.operator "-", .identifier "y"] := by decide +kernel
  have hplain : (Statement.ofTokens (Token.ofText "-y")).target = none := by rw [htokens]; rfl
  have hvalue : evaluate ⟨⟨[("y", 3)]⟩⟩ "-y" = .ok (-3, ⟨⟨[("y", 3)]⟩⟩) := by
    refine evaluate_eq_ok_iff.mpr ⟨[.identifier "y", .operator "neg"], ?_, rfl, ?_⟩
    · rw [expressionTokens_of_plain hplain, htokens]
      rfl
    · rw [hplain]
      rfl
  have halone : StandsAlone "y" [.operator "-", .identifier "y", .operator "^", .identifier "y",
      .operator "*"] := by
    simp [StandsAlone, Token.operator, Token.identifier]
  have h := evaluate_replaceName hplain hvalue halone
  rw [htokens] at h
  exact h

end Reckoner.Calculator
