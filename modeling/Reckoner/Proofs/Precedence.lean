import Reckoner.Grammar
import Reckoner.Rpn

/-!
# How tightly the signs bind

The levels of the grammar are the precedences of the operators. The signs of the levels up to the
products group to the left; powers and signs in front of an operand are the only ones that bind as
tight as a power, and they group to the right.
-/

namespace Reckoner.Operator

/-- A known symbol is the symbol of an operator of the table. -/
theorem find?_mem {symbol : String} {o : Operator} (h : find? symbol = some o) :
    o ∈ table ∧ o.symbol = symbol := by
  have hs := List.find?_some h
  exact ⟨List.mem_of_find?_eq_some h, eq_of_beq hs⟩

/-- The unknown symbols are those that no operator of the table has. -/
theorem find?_eq_none_iff {symbol : String} :
    find? symbol = none ↔ symbol ∉ table.map Operator.symbol := by
  simp only [find?, List.find?_eq_none, List.mem_map, not_exists, not_and, beq_iff_eq]

/-- No symbol binds tighter than the signs in front of an operand. -/
theorem precedenceOf_le (symbol : String) : precedenceOf symbol ≤ 7 := by
  have htable : ∀ o ∈ table, (o.precedence : Int) ≤ 7 := by decide
  unfold precedenceOf
  cases h : find? symbol with
  | none => decide
  | some o => exact htable o (find?_mem h).1

/-- What binds as tight as a power groups to the right. -/
theorem groupsLeft_of_tight {symbol : String} (h : 6 ≤ precedenceOf symbol) :
    groupsLeft symbol = false := by
  have htable : ∀ o ∈ table, 6 ≤ (o.precedence : Int) → (o.associativity == .left) = false := by
    decide
  unfold precedenceOf at h
  unfold groupsLeft
  cases hf : find? symbol with
  | none => simp only [hf] at h; omega
  | some o =>
    simp only [hf] at h
    exact htable o (find?_mem hf).1 h

end Reckoner.Operator

namespace Reckoner.Grammar

/-- The level of a sign that groups to the left is its precedence. -/
theorem LeftSign.precedenceOf {level : Int} {sign : String} (h : LeftSign level sign) :
    Operator.precedenceOf sign = level := by
  rcases h with ⟨rfl, h⟩ | ⟨rfl, h⟩ | ⟨rfl, h⟩ | ⟨rfl, h⟩ | ⟨rfl, h⟩ | ⟨rfl, h⟩ | ⟨rfl, h⟩
  · rw [Operator.precedenceOf, Operator.find?_eq_none_iff.mpr h]
  all_goals revert sign; decide

/-- The signs of the levels that group to the left do so. -/
theorem LeftSign.groupsLeft {level : Int} {sign : String} (h : LeftSign level sign) :
    Operator.groupsLeft sign = true := by
  rcases h with ⟨-, h⟩ | ⟨-, h⟩ | ⟨-, h⟩ | ⟨-, h⟩ | ⟨-, h⟩ | ⟨-, h⟩ | ⟨-, h⟩
  · rw [Operator.groupsLeft, Operator.find?_eq_none_iff.mpr h]
  all_goals revert sign; decide

/-- The levels that group to the left end below the powers. -/
theorem LeftSign.level_le {level : Int} {sign : String} (h : LeftSign level sign) : level ≤ 5 := by
  unfold LeftSign at h
  omega

/-- The powers have the precedence of their level. -/
theorem precedenceOf_power {sign : String} (h : sign ∈ powerSigns) :
    Operator.precedenceOf sign = 6 := by
  revert sign
  decide

end Reckoner.Grammar
