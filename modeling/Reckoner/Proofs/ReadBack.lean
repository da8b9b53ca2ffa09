import Reckoner.Proofs.Assignment
import Reckoner.Proofs.DoubleOrder
import Reckoner.Proofs.LexemeBoundary
import Reckoner.Proofs.WrittenNumber

/-!
# Displayed numbers read back

The brief form of a double that is a number is read as an equal double; what it does not keep is
the sign of zero. So two numbers are displayed alike only if they are equal. And in positional form
a calculator takes the text for a number, behind a sign if there is one, and evaluates it to an
equal value.
-/

namespace Reckoner.Number

/-- The brief form of a number is read as the double with its rank, and with its sign if it is not
zero. -/
theorem read?_brief {x : Float} (h : rankOf x ≤ infinityRank) :
    read? (brief x) = some (ofRank (isNegative x && rankOf x != 0) (rankOf x)) := by
  rcases Nat.lt_or_eq_of_le h with hfinite | hinfinite
  · obtain ⟨cs, hbrief, hwrites, -⟩ := brief_of_finite hfinite
    rw [hbrief, hwrites.read?_signed]
  · have hdatum : datum x = .infinite (isNegative x) := by
      rw [datum, hinfinite]
      rfl
    have hname : brief x = signed (isNegative x) ['i', 'n', 'f'] := by
      rw [brief, hdatum]
      dsimp only
      rw [full, hdatum]
    rw [hname, hinfinite]
    cases isNegative x <;> decide +kernel

/-- The two zeros. -/
theorem ofRank_zero : ofRank false 0 = 0 ∧ ofRank true 0 = -0 := by
  decide +kernel

/-- Zero has the first rank. -/
theorem rankOf_zero : rankOf 0 = 0 := by
  rw [← ofRank_zero.1, rankOf_ofRank false (Nat.zero_le _)]

/-- The double that is read is equal to the one displayed, and only the negative zero is not the
same. -/
theorem read?_brief_beq {x : Float} (h : rankOf x ≤ infinityRank) :
    ∃ y, read? (brief x) = some y ∧ (y == x) = true ∧ (y = x ∨ x = -0 ∧ y = 0) := by
  have hx := ofRank_rankOf h
  refine ⟨_, read?_brief h, ?_⟩
  by_cases hrank : rankOf x = 0
  · have hread : ofRank (isNegative x && rankOf x != 0) (rankOf x) = 0 := by
      rw [hrank, ← ofRank_zero.1]
      cases isNegative x <;> rfl
    have hbeq : ((0 : Float) == x) = true :=
      (beq_iff (rankOf_zero ▸ Nat.zero_le _) h).mpr (Or.inr ⟨rankOf_zero, hrank⟩)
    rw [hread]
    refine ⟨hbeq, ?_⟩
    rw [hrank] at hx
    cases hneg : isNegative x with
    | false =>
      rw [hneg, ofRank_zero.1] at hx
      exact Or.inl hx
    | true =>
      rw [hneg, ofRank_zero.2] at hx
      exact Or.inr ⟨hx.symm, rfl⟩
  · rw [bne_iff_ne.mpr hrank, Bool.and_true, hx]
    exact ⟨(beq_iff h h).mpr (Or.inl rfl), Or.inl rfl⟩

/-- Numbers are displayed alike exactly if they are equal. -/
theorem brief_eq_brief_iff {x y : Float} (hx : rankOf x ≤ infinityRank)
    (hy : rankOf y ≤ infinityRank) : brief x = brief y ↔ (x == y) = true := by
  rw [beq_iff hx hy]
  constructor
  · intro hbrief
    have hread := (read?_brief hx).symm.trans ((congrArg read? hbrief).trans (read?_brief hy))
    have hsame := Option.some.inj hread
    have hrank : rankOf x = rankOf y := by
      have := congrArg rankOf hsame
      rwa [rankOf_ofRank _ hx, rankOf_ofRank _ hy] at this
    by_cases hzero : rankOf x = 0
    · exact Or.inr ⟨hzero, hrank ▸ hzero⟩
    · have hneg := congrArg isNegative hsame
      rw [isNegative_ofRank _ hx, isNegative_ofRank _ hy, ← hrank, bne_iff_ne.mpr hzero,
        Bool.and_true, Bool.and_true] at hneg
      exact Or.inl (eq_of_rankOf_eq hneg hrank)
  · rintro (rfl | ⟨hzero, hzero'⟩)
    · rfl
    · have hbrief {z : Float} (h : rankOf z = 0) : brief z = signed false (naturalText 0) := by
        have hwhole : magnitudeOfRank (rankOf z) = 0 * unitsPerOne := by
          rw [h, Nat.zero_mul]
          rfl
        rw [brief_of_whole (by rw [h]; decide) hwhole (by decide)]
        exact congrArg (signed · _) (Bool.and_false _)
      rw [hbrief hzero, hbrief hzero']

/-- Zero and the doubles from `10 ^ -4` up to `10 ^ 16` by their ranks. -/
theorem rank_of_range {x : Float} (h : (x == 0) = true ∨ 1e-4 ≤ x.abs ∧ x.abs < 1e16) :
    rankOf x < infinityRank ∧ (rankOf x = 0 ∨
      Decimal.rank ⟨1, -4⟩ ≤ rankOf x ∧ rankOf x < Decimal.rank ⟨1, 16⟩) := by
  have hlow : (1e-4 : Float) = ofRank false (Decimal.rank ⟨1, -4⟩) := by decide +kernel
  have hhigh : (1e16 : Float) = ofRank false (Decimal.rank ⟨1, 16⟩) := by decide +kernel
  rcases h with hzero | ⟨hlarge, hsmall⟩
  · have hx := rankOf_le_of_beq hzero
    have hrank : rankOf x = 0 := by
      rcases (beq_iff hx (rankOf_zero ▸ Nat.zero_le _)).mp hzero with rfl | hboth
      · exact rankOf_zero
      · exact hboth.1
    exact ⟨by rw [hrank]; decide, Or.inl hrank⟩
  · have hx := rankOf_le_of_abs_lt hsmall
    have habs : x.abs = ofRank false (rankOf x) := by
      rw [← abs_ofRank (isNegative x) hx, ofRank_rankOf hx]
    rw [habs, hlow, ofRank_le_ofRank (Decimal.rank_le _) hx] at hlarge
    rw [habs, hhigh, ofRank_lt_ofRank hx (Decimal.rank_le _)] at hsmall
    exact ⟨Nat.lt_of_lt_of_le hsmall (Decimal.rank_le _), Or.inr ⟨hlarge, hsmall⟩⟩

end Reckoner.Number

namespace Reckoner.Token

/-- A number lexeme is its own token. -/
theorem scan_of_isNumber {cs : List Char} (h : IsNumber cs) :
    scan cs = [.number (String.ofList cs)] := by
  have hchars : (number (String.ofList cs)).text.toList = cs := String.toList_ofList
  have hvalid : (number (String.ofList cs)).IsValid := by
    change IsNumber (String.ofList cs).toList
    rwa [String.toList_ofList]
  have htoken := scan_of_isValid hvalid
  rwa [hchars] at htoken

/-- A minus is a token of its own, whatever stands behind it. -/
theorem scan_minus (cs : List Char) : scan ('-' :: cs) = .operator "-" :: scan cs := by
  have hsingle : cs.head?.any (isDoubleSign '-') = false := by
    cases cs.head? with
    | none => rfl
    | some d => simp [isDoubleSign]
  have hextent : extent '-' cs = (.operator, 0) := by
    change (if cs.head?.any (isDoubleSign '-') then _ else _) = _
    rw [hsingle]
    rfl
  rw [scan_cons_of_not_isBlank (by decide), hextent, List.take_zero, List.drop_zero]
  rfl

end Reckoner.Token

namespace Reckoner.Calculator

open Number

/-- A calculator takes a number lexeme for its value, and a minus in front of it for the
opposite. -/
theorem evaluate_signed (calculator : Calculator) {cs : List Char} {rank : Nat}
    (hlexeme : Token.IsNumber cs) (hwrites : Writes cs rank) (h : rank ≤ infinityRank)
    (negative : Bool) :
    (calculator.evaluate (signed negative cs)).map Prod.fst = .ok (ofRank negative rank) := by
  have hliteral : Meaning calculator.bindings (.number (String.ofList cs))
      (.literal (ofRank false rank)) := .number rfl (hwrites.read?_signed false)
  cases negative with
  | false =>
    have htokens : Token.ofText (signed false cs) = [.number (String.ofList cs)] := by
      rw [Token.ofText, signed, String.toList_ofList]
      exact Token.scan_of_isNumber hlexeme
    have hbody : (Statement.ofTokens [.number (String.ofList cs)]).body =
        [.number (String.ofList cs)] := rfl
    have harranged : Rpn.arrange [.number (String.ofList cs)] =
        .ok [.number (String.ofList cs)] := rfl
    rw [map_fst_evaluate, expressionTokens, htokens, hbody, harranged]
    exact evaluate_literal hliteral
  | true =>
    have htokens : Token.ofText (signed true cs) =
        [.operator "-", .number (String.ofList cs)] := by
      rw [Token.ofText, signed, String.toList_ofList, if_pos rfl, Token.scan_minus,
        Token.scan_of_isNumber hlexeme]
    have hbody : (Statement.ofTokens [.operator "-", .number (String.ofList cs)]).body =
        [.operator "-", .number (String.ofList cs)] := rfl
    have harranged : Rpn.arrange [.operator "-", .number (String.ofList cs)] =
        .ok [.number (String.ofList cs), .operator "neg"] := rfl
    rw [map_fst_evaluate, expressionTokens, htokens, hbody, harranged]
    change Reckoner.evaluate calculator.bindings _ = _
    rw [Reckoner.evaluate_eq_ok_iff, Evaluation.runFrom_cons,
      Evaluation.runFrom_singleton (ofToken_eq_ok_iff.mpr hliteral)]
    change Except.ok [-ofRank false rank] = _
    rw [neg_ofRank false h]
    rfl

/-- Displayed in positional form a double is evaluated to an equal value. -/
theorem evaluate_brief {x : Float} (h : (x == 0) = true ∨ 1e-4 ≤ x.abs ∧ x.abs < 1e16)
    (calculator : Calculator) :
    ∃ y, (calculator.evaluate (brief x)).map Prod.fst = .ok y ∧ (y == x) = true := by
  obtain ⟨hfinite, hrange⟩ := rank_of_range h
  obtain ⟨cs, hbrief, hwrites, hlexeme⟩ := brief_of_finite hfinite
  obtain ⟨y, hread, hbeq, -⟩ := read?_brief_beq (Nat.le_of_lt hfinite)
  rw [read?_brief (Nat.le_of_lt hfinite)] at hread
  refine ⟨y, ?_, hbeq⟩
  rw [hbrief, evaluate_signed calculator (hlexeme hrange) hwrites (Nat.le_of_lt hfinite),
    Option.some.inj hread]

/-- Every finite double is read back from its display, up to the sign of zero; numbers are displayed
alike exactly if they are equal; and a new calculator evaluates the display of zero and of the
doubles from `10 ^ -4` up to `10 ^ 16`, negative ones included, to an equal value. -/
theorem brief_reads_back :
    (∀ x : Float, x.isFinite = true →
      ∃ y, read? (brief x) = some y ∧ (y == x) = true ∧ (y = x ∨ x = -0 ∧ y = 0)) ∧
    (∀ x y : Float, x.isNaN = false → y.isNaN = false →
      (brief x = brief y ↔ (x == y) = true)) ∧
    ∀ x : Float, (x == 0) = true ∨ 1e-4 ≤ x.abs ∧ x.abs < 1e16 →
      ∃ y, (fresh.evaluate (brief x)).map Prod.fst = .ok y ∧ (y == x) = true := by
  have hnumber {x : Float} (h : x.isNaN = false) : rankOf x ≤ infinityRank :=
    Nat.not_lt.mp fun hbehind => Bool.eq_false_iff.mp h (isNaN_iff.mpr hbehind)
  exact ⟨fun _ hfinite => read?_brief_beq (Nat.le_of_lt (isFinite_iff.mp hfinite)),
    fun _ _ hx hy => brief_eq_brief_iff (hnumber hx) (hnumber hy),
    fun _ hrange => evaluate_brief hrange fresh⟩

/-- A negative double that no decimal of its digits is exactly, and a whole one that is displayed
with a point because it is too long. -/
theorem brief_reads_back_tenth :
    Float.isFinite (-0.1) = true ∧ Float.isNaN 1e15 = false ∧
    (1e-4 ≤ Float.abs (-0.1) ∧ Float.abs (-0.1) < 1e16) ∧
    brief (-0.1) = "-0.1" ∧ brief 1e15 = "1000000000000000.0" ∧
    (∃ y, read? (brief (-0.1)) = some y ∧ (y == -0.1) = true) ∧
    brief (-0.1) ≠ brief 1e15 ∧
    ∃ y, (fresh.evaluate (brief (-0.1))).map Prod.fst = .ok y ∧ (y == -0.1) = true := by
  have hfinite : Float.isFinite (-0.1) = true := by decide +kernel
  have hnumber : Float.isNaN (-0.1) = false := by decide +kernel
  have hlong : Float.isNaN 1e15 = false := by decide +kernel
  have hrange : 1e-4 ≤ Float.abs (-0.1) ∧ Float.abs (-0.1) < 1e16 := by decide +kernel
  obtain ⟨hreads, hdisplays, hevaluates⟩ := brief_reads_back
  obtain ⟨y, hread, hbeq, -⟩ := hreads (-0.1) hfinite
  have hother : ¬ ((-0.1 : Float) == 1e15) = true := by decide +kernel
  exact ⟨hfinite, hlong, hrange, by decide +kernel, by decide +kernel, ⟨y, hread, hbeq⟩,
    fun hsame => hother ((hdisplays _ _ hnumber hlong).mp hsame),
    hevaluates (-0.1) (Or.inr hrange)⟩

end Reckoner.Calculator
