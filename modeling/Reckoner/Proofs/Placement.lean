import Reckoner.Proofs.Conservation
import Reckoner.Proofs.Derivation
import Reckoner.Proofs.Lexemes

/-!
# Where tokens may stand

What the grammar derives can be told token by token: each token must fit behind the one in front
of it, an operand must end the row, and the parentheses must be balanced. Read from left to right,
a row of such tokens at every place either awaits an operand or is complete, at some depth of
parentheses. Where all tokens fit, no operand begins directly behind another one.
-/

namespace Reckoner.Grammar

open Rpn

/-- Whether a token fits behind the one in front of it. -/
def fits (previous : Option Token) (token : Token) : Bool :=
  match token.kind with
  | .number => isFrontPosition previous
  | .identifier => isFrontPosition previous
  | .operator =>
    if isFrontPosition previous then frontSigns.contains token.text
    else (Operator.binary? token.text).isSome
  | .opening => isFrontPosition previous || previous.any (·.kind == .identifier)
  | .closing => !isFrontPosition previous

/-- Each token fits behind the one in front of it, and the row ends behind an operand. -/
def Placed : Option Token → List Token → Prop
  | previous, [] => isFrontPosition previous = false
  | previous, token :: tokens => fits previous token = true ∧ Placed (some token) tokens

/-- Whether a token begins an operand directly behind another operand. -/
def adjoins (previous : Option Token) (token : Token) : Bool :=
  !isFrontPosition previous &&
    match token.kind with
    | .number => true
    | .identifier => true
    | .operator => token.text == "!"
    | .opening => !previous.any (·.kind == .identifier)
    | .closing => false

/-- No operand begins directly behind another one. -/
def Separate : Option Token → List Token → Prop
  | _, [] => True
  | previous, token :: tokens => adjoins previous token = false ∧ Separate (some token) tokens

/-- A token that fits does not begin an operand behind another one. -/
theorem adjoins_of_fits {previous : Option Token} {token : Token}
    (h : fits previous token = true) : adjoins previous token = false := by
  unfold adjoins
  unfold fits at h
  cases hp : isFrontPosition previous with
  | true => rfl
  | false =>
    rw [hp] at h
    cases hk : token.kind with
    | number => rw [hk] at h; cases h
    | identifier => rw [hk] at h; cases h
    | operator =>
      simp only [hk, Bool.false_eq_true, if_false] at h
      have hsign : (Operator.binary? "!").isSome = false := by decide
      simp only [Bool.not_false, Bool.true_and, beq_eq_false_iff_ne, ne_eq]
      intro ht
      rw [ht, hsign] at h
      cases h
    | opening =>
      rw [hk] at h
      simpa using h
    | closing => rfl

/-- Placed tokens are separate. -/
theorem Placed.separate {previous : Option Token} {tokens : List Token}
    (h : Placed previous tokens) : Separate previous tokens := by
  induction tokens generalizing previous with
  | nil => trivial
  | cons token tokens ih => exact ⟨adjoins_of_fits h.1, ih h.2⟩

/-- A sign between operands fits behind an operand. -/
theorem fits_sign {level : Int} {sign : String} {last : Token} (hs : BinarySign level sign)
    (hl : 0 ≤ level) (hlast : isFrontPosition (some last) = false) :
    fits (some last) (.operator sign) = true := by
  simp only [fits, Token.operator, hlast, Bool.false_eq_true, if_false]
  exact hs.isSome hl

/-- The tokens of an expression are placed, and so are those that may go on behind an operand. -/
theorem Derives.placed {level : Int} {tokens rest : List Token} {e : Expression}
    (h : Derives 0 level tokens e) (hl : 0 ≤ level) {previous : Option Token}
    (hp : isFrontPosition previous = true)
    (hr : ∀ last, isFrontPosition (some last) = false → Placed (some last) rest) :
    Placed previous (tokens ++ rest) := by
  induction h generalizing previous rest with
  | tighter _ _ ih => exact ih (by omega) hp hr
  | leftward known _ _ ihl ihr =>
    rw [List.append_assoc, List.cons_append]
    exact ihl hl hp fun last hlast =>
      ⟨fits_sign (.inl known) hl hlast, ihr (by omega) rfl hr⟩
  | rightward known _ _ ihl ihr =>
    rw [List.append_assoc, List.cons_append]
    exact ihl (by decide) hp fun last hlast =>
      ⟨fits_sign (.inr ⟨rfl, known⟩) hl hlast, ihr hl rfl hr⟩
  | front known _ ih =>
    refine ⟨?_, ih hl rfl hr⟩
    simp only [fits, Token.operator, hp, if_true]
    exact List.contains_iff_mem.mpr known
  | number text => exact ⟨hp, hr _ rfl⟩
  | name word => exact ⟨hp, hr _ rfl⟩
  | group _ ih =>
    rw [List.append_assoc, List.cons_append]
    refine ⟨by simp [fits, Token.opening, hp], ih (by decide) rfl ?_⟩
    intro last hlast
    exact ⟨by simp [fits, Token.closing, hlast], hr _ rfl⟩
  | call callee _ ih =>
    rw [List.append_assoc, List.cons_append, List.cons_append]
    refine ⟨hp, by simp [fits, Token.opening, Token.identifier], ih (by decide) rfl ?_⟩
    intro last hlast
    exact ⟨by simp [fits, Token.closing, hlast], hr _ rfl⟩

/-- The tokens of an expression. -/
def Derivable (tokens : List Token) : Prop :=
  ∃ e, Derives 0 0 tokens e

/-- The tokens of an operand. -/
def IsOperand (tokens : List Token) : Prop :=
  ∃ e, Derives 0 7 tokens e

/-- An operand is an expression. -/
theorem IsOperand.derivable {tokens : List Token} (h : IsOperand tokens) : Derivable tokens := by
  obtain ⟨e, h⟩ := h
  exact ⟨e, h.loosen (by decide) (by decide)⟩

/-- The tokens of an expression are placed, from the start. -/
theorem Derivable.placed {tokens : List Token} (h : Derivable tokens) : Placed none tokens := by
  obtain ⟨e, h⟩ := h
  have hrest : ∀ last, isFrontPosition (some last) = false → Placed (some last) [] :=
    fun _ hlast => hlast
  simpa using h.placed (by decide) rfl hrest

/-- Tokens that may end, or go on with a closing parenthesis, behind some open ones: an expression
stands behind the innermost of these, and with any expression in its place, closed, the tokens are
complete one level further out. -/
def Complete : Nat → List Token → Prop
  | 0, seen => Derivable seen
  | depth + 1, seen => ∃ outer inner, seen = outer ++ inner ∧ Derivable inner ∧
      ∀ body, Derivable body → Complete depth (outer ++ (body ++ [.closing]))

/-- Tokens inside some open parentheses that an operand makes complete. -/
def Awaiting (depth : Nat) (seen : List Token) : Prop :=
  ∀ operand, IsOperand operand → Complete depth (seen ++ operand)

/-- Before the first token, an operand is awaited. -/
theorem awaiting_nil : Awaiting 0 [] :=
  fun _ ho => ho.derivable

/-- A sign in front of an operand leaves the operand awaited. -/
theorem Awaiting.front {depth : Nat} {seen : List Token} {sign : String}
    (h : Awaiting depth seen) (hs : sign ∈ frontSigns) :
    Awaiting depth (seen ++ [.operator sign]) := by
  rintro operand ⟨e, he⟩
  rw [List.append_assoc]
  exact h _ ⟨_, .front hs he⟩

/-- Behind an opening parenthesis an operand is awaited, one level deeper. -/
theorem Awaiting.group {depth : Nat} {seen : List Token} (h : Awaiting depth seen) :
    Awaiting (depth + 1) (seen ++ [.opening]) := by
  intro operand ho
  refine ⟨_, operand, rfl, ho.derivable, ?_⟩
  rintro body ⟨e, he⟩
  rw [List.append_assoc]
  exact h _ ⟨_, .group he⟩

/-- So it is behind the opening parenthesis of an argument. -/
theorem Awaiting.call {depth : Nat} {seen : List Token} (h : Awaiting depth seen)
    (callee : String) : Awaiting (depth + 1) (seen ++ [.identifier callee] ++ [.opening]) := by
  intro operand ho
  refine ⟨_, operand, rfl, ho.derivable, ?_⟩
  rintro body ⟨e, he⟩
  rw [List.append_assoc, List.append_assoc]
  exact h _ ⟨_, .call callee he⟩

/-- A sign between operands makes an operand awaited again. -/
theorem Complete.sign {depth : Nat} {seen : List Token} {sign : String} (h : Complete depth seen)
    (hs : (Operator.binary? sign).isSome) : Awaiting depth (seen ++ [.operator sign]) := by
  obtain ⟨level, hl, hs⟩ := exists_binarySign hs
  have goes_on {tokens operand : List Token} (ht : Derivable tokens) (ho : IsOperand operand) :
      Derivable (tokens ++ [.operator sign] ++ operand) := by
    obtain ⟨e, he⟩ := ht
    obtain ⟨r, hr⟩ := ho
    rw [List.append_assoc]
    exact he.extend hl hs hr
  intro operand ho
  cases depth with
  | zero => exact goes_on h ho
  | succ depth =>
    -- Only the expression inside the innermost parenthesis goes on; what is outside stays.
    obtain ⟨outer, inner, rfl, hi, hc⟩ := h
    exact ⟨outer, _, by simp only [List.append_assoc], goes_on hi ho, hc⟩

/-- A closing parenthesis closes the innermost level. -/
theorem Complete.close {depth : Nat} {seen : List Token} (h : Complete (depth + 1) seen) :
    Complete depth (seen ++ [.closing]) := by
  obtain ⟨outer, inner, rfl, hi, hc⟩ := h
  rw [List.append_assoc]
  exact hc inner hi

/-- Where the reading of placed tokens stands behind the last one: an operand is awaited, or the
tokens are complete; and a name may still turn out to be the name of a function. -/
inductive Stands (previous : Option Token) (depth : Nat) (seen : List Token) : Prop where
  /-- An operand is awaited. -/
  | ahead (front : isFrontPosition previous = true) (awaiting : Awaiting depth seen)
  /-- The tokens are complete. -/
  | behind (back : isFrontPosition previous = false) (complete : Complete depth seen)
      (named : ∀ token, previous = some token → token.kind = .identifier →
        ∃ before, seen = before ++ [token] ∧ Awaiting depth before)

/-- Where a row may go on with an operand, one is awaited. -/
theorem Stands.awaiting {previous : Option Token} {depth : Nat} {seen : List Token}
    (h : Stands previous depth seen) (hp : isFrontPosition previous = true) :
    Awaiting depth seen := by
  cases h with
  | ahead _ awaiting => exact awaiting
  | behind back => rw [hp] at back; cases back

/-- Where a row may end, it is complete. -/
theorem Stands.complete {previous : Option Token} {depth : Nat} {seen : List Token}
    (h : Stands previous depth seen) (hp : isFrontPosition previous = false) :
    Complete depth seen := by
  cases h with
  | ahead front => rw [hp] at front; cases front
  | behind _ complete => exact complete

section Steps

variable {previous : Option Token} {depth : Nat} {seen : List Token} {token : Token}

/-- A number completes what awaits an operand. -/
theorem Stands.number (h : Stands previous depth seen) (hk : token.kind = .number)
    (hf : fits previous token = true) : Stands (some token) depth (seen ++ [token]) := by
  obtain ⟨kind, text⟩ := token
  cases hk
  refine .behind rfl (h.awaiting hf _ ⟨_, .number text⟩) ?_
  rintro _ ⟨⟩ ⟨⟩

/-- So does a name. -/
theorem Stands.name (h : Stands previous depth seen) (hk : token.kind = .identifier)
    (hf : fits previous token = true) : Stands (some token) depth (seen ++ [token]) := by
  obtain ⟨kind, text⟩ := token
  cases hk
  refine .behind rfl (h.awaiting hf _ ⟨_, .name text⟩) ?_
  rintro _ ⟨⟩ -
  exact ⟨seen, rfl, h.awaiting hf⟩

/-- A sign makes an operand awaited. -/
theorem Stands.sign (h : Stands previous depth seen) (hk : token.kind = .operator)
    (hf : fits previous token = true) : Stands (some token) depth (seen ++ [token]) := by
  obtain ⟨kind, text⟩ := token
  cases hk
  refine .ahead rfl ?_
  simp only [fits] at hf
  cases hp : isFrontPosition previous with
  | true =>
    rw [hp, if_pos rfl] at hf
    exact (h.awaiting hp).front (List.contains_iff_mem.mp hf)
  | false =>
    rw [hp, if_neg Bool.false_ne_true] at hf
    exact (h.complete hp).sign hf

/-- An opening parenthesis goes one level deeper, behind a name or not. -/
theorem Stands.opening (h : Stands previous depth seen) (hf : fits previous .opening = true) :
    Stands (some .opening) (depth + 1) (seen ++ [.opening]) := by
  refine .ahead rfl ?_
  cases h with
  | ahead _ awaiting => exact awaiting.group
  | behind back _ named =>
    simp only [fits, Token.opening, back, Bool.false_or, Option.any_eq_true, beq_iff_eq] at hf
    obtain ⟨name, hname, hk⟩ := hf
    obtain ⟨before, rfl, awaiting⟩ := named name hname hk
    obtain ⟨kind, text⟩ := name
    cases hk
    exact awaiting.call text

/-- A closing parenthesis comes back from the deeper level. -/
theorem Stands.closing (h : Stands previous (depth + 1) seen)
    (hf : fits previous .closing = true) :
    Stands (some .closing) depth (seen ++ [.closing]) := by
  refine .behind rfl ((h.complete ?_).close) ?_
  · simpa [fits, Token.closing] using hf
  · rintro _ ⟨⟩ ⟨⟩

end Steps

/-- Placed tokens with balanced parentheses go on to an expression. -/
theorem Stands.derivable {tokens : List Token} {previous : Option Token} {depth : Nat}
    {seen : List Token} (h : Stands previous depth seen) (hv : ∀ t ∈ tokens, t.IsValid)
    (hp : Placed previous tokens) (hb : Closes depth tokens) : Derivable (seen ++ tokens) := by
  induction tokens generalizing previous depth seen with
  | nil =>
    cases hb
    rw [List.append_nil]
    exact h.complete hp
  | cons token tokens ih =>
    obtain ⟨hf, hp⟩ := hp
    rw [List.forall_mem_cons] at hv
    rw [List.append_cons]
    unfold Closes at hb
    cases hk : token.kind with
    | number => exact ih (h.number hk hf) hv.2 hp (by simpa only [hk] using hb)
    | identifier => exact ih (h.name hk hf) hv.2 hp (by simpa only [hk] using hb)
    | operator => exact ih (h.sign hk hf) hv.2 hp (by simpa only [hk] using hb)
    | opening =>
      obtain rfl := hv.1.eq_opening hk
      exact ih (h.opening hf) hv.2 hp hb
    | closing =>
      obtain rfl := hv.1.eq_closing hk
      obtain ⟨outer, rfl, hb⟩ := hb
      exact ih (h.closing hf) hv.2 hp hb

/-- Lexemes with balanced parentheses are an expression exactly if they are placed. -/
theorem derivable_iff_placed {tokens : List Token} (hv : ∀ t ∈ tokens, t.IsValid)
    (hb : Closes 0 tokens) : Derivable tokens ↔ Placed none tokens :=
  ⟨Derivable.placed, fun hp => (Stands.ahead rfl awaiting_nil).derivable hv hp hb⟩

end Reckoner.Grammar
