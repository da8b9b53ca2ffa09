import Reckoner.Grammar
import Reckoner.Proofs.Precedence

/-!
# Derivations

How derivations of the grammar are put together. What a tight level derives, every looser level
derives; and an expression of a level goes on with a sign of this level or a tighter one and an
operand behind it.
-/

namespace Reckoner.Grammar

/-- What a level derives, every looser level derives. -/
theorem Derives.loosen {loosest level tighter : Int} {tokens : List Token} {e : Expression}
    (h : Derives loosest tighter tokens e) (hl : level ≤ tighter) (ht : tighter ≤ 7) :
    Derives loosest level tokens e := by
  obtain ⟨n, rfl⟩ := Int.le.dest hl
  induction n generalizing level with
  | zero => simpa using h
  | succ n ih =>
    refine .tighter (by omega) ?_
    have hsum : level + 1 + (n : Int) = level + ((n + 1 : Nat) : Int) := by omega
    rw [← hsum] at h ht
    exact ih h (by omega) ht

/-- The signs of a level that stand between two operands. -/
def BinarySign (level : Int) (sign : String) : Prop :=
  LeftSign level sign ∨ level = 6 ∧ sign ∈ powerSigns

/-- The levels of the signs between two operands end with the powers. -/
theorem BinarySign.level_le {level : Int} {sign : String} (h : BinarySign level sign) :
    level ≤ 6 := by
  rcases h with h | ⟨rfl, -⟩
  · have := h.level_le
    omega
  · exact Int.le_refl _

/-- The operators with two operands have a level each. -/
theorem exists_binarySign {sign : String} (h : (Operator.binary? sign).isSome) :
    ∃ level, 0 ≤ level ∧ BinarySign level sign := by
  have htable : ∀ o ∈ Operator.table, (Operator.binary? o.symbol).isSome →
      ∃ level ∈ [0, 1, 2, 3, 4, 5, 6], 0 ≤ level ∧ BinarySign level o.symbol := by
    unfold BinarySign LeftSign
    decide
  cases ho : Operator.find? sign with
  | none => simp [Operator.binary?, ho] at h
  | some o =>
    obtain ⟨hm, rfl⟩ := Operator.find?_mem ho
    obtain ⟨level, -, hl, hs⟩ := htable o hm h
    exact ⟨level, hl, hs⟩

/-- The signs of the levels from `||` on are operators with two operands. -/
theorem BinarySign.isSome {level : Int} {sign : String} (h : BinarySign level sign)
    (hl : 0 ≤ level) : (Operator.binary? sign).isSome := by
  unfold BinarySign LeftSign at h
  rcases h with (⟨rfl, -⟩ | ⟨-, h⟩ | ⟨-, h⟩ | ⟨-, h⟩ | ⟨-, h⟩ | ⟨-, h⟩ | ⟨-, h⟩) | ⟨-, h⟩
  · exact absurd hl (by decide)
  all_goals revert sign; decide

/-- Behind a sign that takes what was derived as its left operand stands its right operand. -/
theorem Derives.between {loosest level : Int} {sign : String} {before behind : List Token}
    {l r : Expression} (hs : BinarySign level sign) (hl : Derives loosest level before l)
    (hr : Derives loosest 7 behind r) (hp : level = 6 → Derives loosest 7 before l) :
    Derives loosest level (before ++ .operator sign :: behind) (.between sign l r) := by
  have hlevel := hs.level_le
  rcases hs with hs | ⟨rfl, hs⟩
  · exact .leftward hs hl (hr.loosen (by omega) (by omega))
  · exact .rightward hs (hp rfl) (hr.loosen (by omega) (by omega))

/-- An expression goes on with a sign of its level or of a tighter one, and an operand behind. -/
theorem Derives.extend {loosest level tighter : Int} {sign : String} {before behind : List Token}
    {e operand : Expression} (h : Derives loosest level before e) (hl : level ≤ tighter)
    (hs : BinarySign tighter sign) (ho : Derives loosest 7 behind operand) :
    ∃ whole, Derives loosest level (before ++ .operator sign :: behind) whole := by
  have htighter := hs.level_le
  induction h with
  | @tighter level tokens e below inner ih =>
    -- A tighter sign goes on inside, a sign of this level takes all of it as its left operand.
    rcases Int.lt_or_eq_of_le hl with hlt | rfl
    · obtain ⟨whole, hw⟩ := ih (by omega)
      exact ⟨whole, .tighter below hw⟩
    · refine ⟨_, Derives.between hs (.tighter below inner) ho ?_⟩
      rintro rfl
      exact inner
  | @leftward level sign' before after l r known left right _ ihr =>
    rcases Int.lt_or_eq_of_le hl with hlt | rfl
    · obtain ⟨whole, hw⟩ := ihr (by omega)
      rw [List.append_assoc, List.cons_append]
      exact ⟨_, .leftward known left hw⟩
    · refine ⟨_, Derives.between hs (.leftward known left right) ho ?_⟩
      rintro rfl
      exact absurd known.level_le (by decide)
  | @rightward sign' before after l r known left right _ ihr =>
    obtain ⟨whole, hw⟩ := ihr hl
    rw [List.append_assoc, List.cons_append]
    exact ⟨_, .rightward known left hw⟩
  | front => omega
  | number => omega
  | name => omega
  | group => omega
  | call => omega

end Reckoner.Grammar
