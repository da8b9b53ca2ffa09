import Reckoner.Proofs.Derivation
import Reckoner.Proofs.Reading

/-!
# Reading an expression in reverse Polish order

An expression of a level is read over any stack whose top stays put for the signs of that level.
Part of its output moves out while it is read; the rest waits on the stack, and consists of
operators of that level or a tighter one. Whatever comes behind the expression moves these out
first. At the end of the tokens the output is the post-order of the tree.
-/

namespace Reckoner.Rpn

/-- What moves out later stands behind what moved out first. -/
theorem map_append_map (moved more : List Token) (result : Except Failure (List Token)) :
    (result.map (more ++ ·)).map (moved ++ ·) = result.map ((moved ++ more) ++ ·) := by
  cases result with
  | error failure => rfl
  | ok output => exact congrArg Except.ok (List.append_assoc moved more output).symm

/-- An operator token waits for the symbols it does not yield to. -/
theorem yields_operator (symbol sign : String) :
    yields symbol (.operator sign) = true ↔
      Operator.precedenceOf symbol < Operator.precedenceOf sign ∨
        Operator.precedenceOf sign = Operator.precedenceOf symbol ∧
          Operator.groupsLeft symbol = true := by
  rw [yields, Bool.and_eq_true, Bool.or_eq_true, Bool.and_eq_true, decide_eq_true_iff, beq_iff_eq,
    beq_iff_eq]
  exact and_iff_right rfl

/-- A stack whose top stays put for the operators of a level and the tighter ones, and is not the
name of a function that waits for its parenthesis. -/
def Holds (level : Int) (waiting : List Token) : Prop :=
  ∀ top ∈ waiting.head?, top.kind ≠ .identifier ∧
    ∀ symbol, level ≤ Operator.precedenceOf symbol → yields symbol top = false

/-- What stays put for a level stays put for a tighter one. -/
theorem Holds.mono {level tighter : Int} {waiting : List Token} (h : Holds level waiting)
    (hl : level ≤ tighter) : Holds tighter waiting := by
  intro top ht
  exact ⟨(h top ht).1, fun symbol hs => (h top ht).2 symbol (Int.le_trans hl hs)⟩

/-- An opening parenthesis yields to no operator. -/
theorem holds_opening (level : Int) (waiting : List Token) :
    Holds level (.opening :: waiting) := by
  intro top ht
  cases ht
  exact ⟨by decide, fun symbol _ => rfl⟩

/-- An operator that yields to no symbol of a level or tighter holds for that level. -/
theorem holds_operator {level : Int} {symbol : String}
    (h : ∀ other, level ≤ Operator.precedenceOf other → yields other (.operator symbol) = false)
    (waiting : List Token) : Holds level (.operator symbol :: waiting) := by
  intro top ht
  cases ht
  exact ⟨by simp [Token.operator], h⟩

/-- An operator token moves out the operators on top that yield to it, if the stack below these
holds for it, and waits in their place. -/
theorem arrangeFrom_operator {level : Int} {sign symbol : String} {previous : Option Token}
    {pending waiting : List Token} (hp : ∀ token ∈ pending, yields symbol token = true)
    (hw : Holds level waiting) (hl : level ≤ Operator.precedenceOf symbol)
    (hread : readOperator previous (.operator sign) = .operator symbol) (tokens : List Token) :
    arrangeFrom (pending ++ waiting) previous (.operator sign :: tokens) =
      (arrangeFrom (.operator symbol :: waiting) (some (.operator sign)) tokens).map
        (pending ++ ·) := by
  have hstop : waiting.takeWhile (yields symbol) = [] ∧
      waiting.dropWhile (yields symbol) = waiting := by
    cases waiting with
    | nil => exact ⟨rfl, rfl⟩
    | cons top below =>
      have ht : ¬yields symbol top = true := by simp [(hw top rfl).2 symbol hl]
      exact ⟨List.takeWhile_cons_of_neg ht, List.dropWhile_cons_of_neg ht⟩
  have htake : (pending ++ waiting).takeWhile (yields symbol) = pending := by
    rw [List.takeWhile_append_of_pos hp, hstop.1, List.append_nil]
  have hdrop : (pending ++ waiting).dropWhile (yields symbol) = waiting := by
    rw [List.dropWhile_append_of_pos hp, hstop.2]
  apply arrangeFrom_cons
  change Except.ok ((pending ++ waiting).takeWhile (yields (readOperator previous _).text),
    readOperator previous _ ::
      (pending ++ waiting).dropWhile (yields (readOperator previous _).text)) = _
  rw [hread]
  change Except.ok ((pending ++ waiting).takeWhile (yields symbol),
    _ :: (pending ++ waiting).dropWhile (yields symbol)) = _
  rw [htake, hdrop]

/-- What waits above an opening parenthesis leaves with it. -/
theorem split_group {pending waiting : List Token}
    (hp : ∀ token ∈ pending, isOpening token = false) :
    (pending ++ .opening :: waiting).takeWhile (!isOpening ·) = pending ∧
      (pending ++ .opening :: waiting).dropWhile (!isOpening ·) = .opening :: waiting := by
  have hn : ∀ token ∈ pending, (!isOpening token) = true := by
    intro token ht
    rw [hp token ht]
    rfl
  rw [List.takeWhile_append_of_pos hn, List.dropWhile_append_of_pos hn]
  exact ⟨List.append_nil _, rfl⟩

/-- A group that no name stands before leaves what waits below it. -/
theorem closeGroup_group {pending waiting : List Token}
    (hp : ∀ token ∈ pending, isOpening token = false)
    (hw : ∀ top ∈ waiting.head?, top.kind ≠ .identifier) :
    closeGroup (pending ++ .opening :: waiting) = .ok (pending, waiting) := by
  unfold closeGroup
  rw [(split_group hp).1, (split_group hp).2]
  cases waiting with
  | nil => rfl
  | cons top below => simp [hw top rfl]

/-- The name that is called leaves behind its argument. -/
theorem closeGroup_call (callee : String) (waiting : List Token) {pending : List Token}
    (hp : ∀ token ∈ pending, isOpening token = false) :
    closeGroup (pending ++ .opening :: .identifier callee :: waiting) =
      .ok (pending ++ [.identifier callee], waiting) := by
  unfold closeGroup
  rw [(split_group hp).1, (split_group hp).2]
  rfl

/-- Over any stack that holds for the level, reading the tokens moves out a front part of the
output, and leaves the rest of it on the stack as operators of the level or tighter. -/
def ReadsAs (level : Int) (tokens output : List Token) : Prop :=
  ∀ waiting previous rest, Holds level waiting → isFrontPosition previous = true →
    rest.head?.any isOpening = false →
    ∃ moved pending last, output = moved ++ pending ∧
      (∀ token ∈ pending, token.kind = .operator ∧ level ≤ Operator.precedenceOf token.text) ∧
      isFrontPosition (some last) = false ∧
      arrangeFrom waiting previous (tokens ++ rest) =
        (arrangeFrom (pending ++ waiting) (some last) rest).map (moved ++ ·)

/-- What is read as an expression of a level is read as one of a looser level. -/
theorem ReadsAs.mono {level looser : Int} {tokens output : List Token}
    (h : ReadsAs level tokens output) (hl : looser ≤ level) : ReadsAs looser tokens output := by
  intro waiting previous rest hw hp hr
  obtain ⟨moved, pending, last, ho, hpending, hlast, hrun⟩ := h waiting previous rest (hw.mono hl) hp hr
  refine ⟨moved, pending, last, ho, ?_, hlast, hrun⟩
  intro token ht
  exact ⟨(hpending token ht).1, Int.le_trans hl (hpending token ht).2⟩

/-- A number moves out at once. -/
theorem readsAs_number (level : Int) (text : String) :
    ReadsAs level [.number text] [.number text] := by
  intro waiting previous rest _ _ _
  refine ⟨[.number text], [], .number text, rfl, by simp, rfl, ?_⟩
  exact arrangeFrom_cons rfl

/-- A name that no parenthesis follows moves out at once. -/
theorem readsAs_name (level : Int) (word : String) :
    ReadsAs level [.identifier word] [.identifier word] := by
  intro waiting previous rest _ _ hr
  refine ⟨[.identifier word], [], .identifier word, rfl, by simp, rfl, ?_⟩
  exact arrangeFrom_cons (if_neg (by simp [hr]))

/-- A sign in front waits for its operand and moves out behind it. -/
theorem readsAs_front {sign symbol : String} {tokens output : List Token}
    (hsymbol : (if sign = "-" then "neg" else if sign = "+" then "pos" else sign) = symbol)
    (htight : Operator.precedenceOf symbol = 7) (h : ReadsAs 7 tokens output) :
    ReadsAs 7 (.operator sign :: tokens) (output ++ [.operator symbol]) := by
  intro waiting previous rest hw hp hr
  have hread : readOperator previous (.operator sign) = .operator symbol := by
    rw [readOperator_front hp, hsymbol]
  have hkeep : ∀ other, 7 ≤ Operator.precedenceOf other →
      yields other (.operator symbol) = false := by
    intro other ho
    have hle := Operator.precedenceOf_le other
    rw [Bool.eq_false_iff, Ne, yields_operator,
      Operator.groupsLeft_of_tight (by omega : 6 ≤ Operator.precedenceOf other)]
    simp only [Bool.false_eq_true, and_false, or_false]
    omega
  obtain ⟨moved, pending, last, ho, hpending, hlast, hrun⟩ :=
    h (.operator symbol :: waiting) (some (.operator sign)) rest (holds_operator hkeep waiting) rfl hr
  refine ⟨moved, pending ++ [.operator symbol], last, by simp [ho], ?_, hlast, ?_⟩
  · intro token ht
    rcases List.mem_append.mp ht with ht | ht
    · exact hpending token ht
    · cases List.mem_singleton.mp ht
      exact ⟨rfl, Int.le_of_eq htight.symm⟩
  · have hfirst := arrangeFrom_operator (List.forall_mem_nil (yields symbol · = true)) hw
      (Int.le_of_eq htight.symm) hread (tokens ++ rest)
    rw [List.nil_append, hrun, map_append_map] at hfirst
    rw [List.cons_append, hfirst, List.nil_append, List.append_assoc, List.singleton_append]

/-- A sign between operands moves out the operators of the left one, and waits until those of the
right one have moved out. -/
theorem readsAs_between {level leftLevel rightLevel : Int} {sign : String}
    {before behind left right : List Token} (hl : level ≤ leftLevel) (hr : level ≤ rightLevel)
    (hs : level ≤ Operator.precedenceOf sign)
    (htake : ∀ other, leftLevel ≤ Operator.precedenceOf other →
      yields sign (.operator other) = true)
    (hkeep : ∀ other, rightLevel ≤ Operator.precedenceOf other →
      yields other (.operator sign) = false)
    (hleft : ReadsAs leftLevel before left) (hright : ReadsAs rightLevel behind right) :
    ReadsAs level (before ++ .operator sign :: behind) (left ++ right ++ [.operator sign]) := by
  intro waiting previous rest hw hp hrest
  obtain ⟨moved, pending, last, ho, hpending, hlast, hrun⟩ :=
    hleft waiting previous (.operator sign :: behind ++ rest) (hw.mono hl) hp rfl
  obtain ⟨moved', pending', last', ho', hpending', hlast', hrun'⟩ :=
    hright (.operator sign :: waiting) (some (.operator sign)) rest (holds_operator hkeep waiting)
      rfl hrest
  have hyield : ∀ token ∈ pending, yields sign token = true := by
    intro token ht
    obtain ⟨hk, hlevel⟩ := hpending token ht
    obtain ⟨kind, text⟩ := token
    cases hk
    exact htake text hlevel
  refine ⟨moved ++ pending ++ moved', pending' ++ [.operator sign], last', by simp [ho, ho'], ?_,
    hlast', ?_⟩
  · intro token ht
    rcases List.mem_append.mp ht with ht | ht
    · exact ⟨(hpending' token ht).1, Int.le_trans hr (hpending' token ht).2⟩
    · cases List.mem_singleton.mp ht
      exact ⟨rfl, hs⟩
  · have hsign := arrangeFrom_operator hyield hw hs (readOperator_behind hlast _) (behind ++ rest)
    rw [hrun', map_append_map] at hsign
    rw [List.append_assoc, hrun, List.cons_append, hsign, map_append_map, List.append_assoc moved,
      List.append_assoc pending', List.singleton_append]

/-- Behind its opening parenthesis an expression is read up to the closing one, which moves out
whatever of its operators still waits. -/
theorem arrangeFrom_enclosed {level : Int} {tokens output extra waiting after : List Token}
    (h : ReadsAs level tokens output)
    (hclose : ∀ pending : List Token, (∀ token ∈ pending, isOpening token = false) →
      closeGroup (pending ++ .opening :: waiting) = .ok (pending ++ extra, after))
    (previous : Option Token) (rest : List Token) :
    arrangeFrom waiting previous (.opening :: (tokens ++ .closing :: rest)) =
      (arrangeFrom after (some .closing) rest).map ((output ++ extra) ++ ·) := by
  obtain ⟨moved, pending, last, ho, hpending, _, hrun⟩ :=
    h (.opening :: waiting) (some .opening) (.closing :: rest) (holds_opening level waiting) rfl rfl
  have hopening : arrangeFrom waiting previous (.opening :: (tokens ++ .closing :: rest)) =
      (arrangeFrom (.opening :: waiting) (some .opening) (tokens ++ .closing :: rest)).map
        ([] ++ ·) := arrangeFrom_cons rfl
  have hclosing : arrangeFrom (pending ++ .opening :: waiting) (some last) (.closing :: rest) =
      (arrangeFrom after (some .closing) rest).map ((pending ++ extra) ++ ·) :=
    arrangeFrom_cons (hclose pending fun token ht => isOpening_of_kind (hpending token ht).1)
  rw [hopening, hrun, hclosing, map_append_map, map_append_map, ho, List.nil_append,
    List.append_assoc moved]

/-- A group closes over the operators of its expression. -/
theorem readsAs_group {level : Int} {tokens output : List Token} (h : ReadsAs level tokens output) :
    ReadsAs 7 (.opening :: tokens ++ [.closing]) output := by
  intro waiting previous rest hw _ _
  have hclose : ∀ pending : List Token, (∀ token ∈ pending, isOpening token = false) →
      closeGroup (pending ++ .opening :: waiting) = .ok (pending ++ [], waiting) := by
    intro pending hp
    rw [List.append_nil, closeGroup_group hp fun top ht => (hw top ht).1]
  refine ⟨output, [], .closing, (List.append_nil _).symm, by simp, rfl, ?_⟩
  have hrun := arrangeFrom_enclosed h hclose previous rest
  rw [List.append_nil] at hrun
  rw [List.append_assoc]
  exact hrun

/-- A call closes over the operators of its argument, and the name moves out behind them. -/
theorem readsAs_call {level : Int} {tokens output : List Token} (callee : String)
    (h : ReadsAs level tokens output) :
    ReadsAs 7 (.identifier callee :: .opening :: tokens ++ [.closing])
      (output ++ [.identifier callee]) := by
  intro waiting previous rest _ _ _
  refine ⟨output ++ [.identifier callee], [], .closing, (List.append_nil _).symm, by simp, rfl, ?_⟩
  have hname : arrangeFrom waiting previous
      (.identifier callee :: .opening :: (tokens ++ .closing :: rest)) =
      (arrangeFrom (.identifier callee :: waiting) (some (.identifier callee))
        (.opening :: (tokens ++ .closing :: rest))).map ([] ++ ·) := arrangeFrom_cons rfl
  have hrun := arrangeFrom_enclosed h (fun pending hp => closeGroup_call callee waiting hp)
    (some (.identifier callee)) rest
  rw [hrun, map_append_map, List.nil_append] at hname
  rw [List.append_assoc]
  exact hname

/-- The tokens that write an expression at a level are read as its post-order. -/
theorem readsAs_postOrder {loosest level : Int} {tokens : List Token} {e : Expression}
    (h : Grammar.Derives loosest level tokens e) : ReadsAs level tokens e.postOrder := by
  induction h with
  | tighter _ _ ih => exact ih.mono (by omega)
  | leftward known _ _ ihl ihr =>
    have hs := known.precedenceOf
    refine readsAs_between (Int.le_refl _) (by omega) (by omega) ?_ ?_ ihl ihr
    · intro other ho
      rw [yields_operator, known.groupsLeft]
      simp only [and_true]
      omega
    · intro other ho
      rw [Bool.eq_false_iff, Ne, yields_operator]
      omega
  | rightward known _ _ ihl ihr =>
    have hs := Grammar.precedenceOf_power known
    refine readsAs_between (by decide) (Int.le_refl _) (by omega) ?_ ?_ ihl ihr
    · intro other ho
      rw [yields_operator]
      omega
    · intro other ho
      rw [Bool.eq_false_iff, Ne, yields_operator, Operator.groupsLeft_of_tight ho]
      simp only [Bool.false_eq_true, and_false, or_false]
      omega
  | front known _ ih =>
    refine readsAs_front rfl ?_ ih
    revert known
    decide +revert
  | number text => exact readsAs_number 7 text
  | name word => exact readsAs_name 7 word
  | group _ ih => exact readsAs_group ih
  | call callee _ ih => exact readsAs_call callee ih

/-- What is read as an expression comes out as its output. -/
theorem ReadsAs.arrange {level : Int} {tokens output : List Token}
    (h : ReadsAs level tokens output) : arrange tokens = .ok output := by
  obtain ⟨moved, pending, last, ho, hpending, _, hrun⟩ := h [] none [] nofun rfl rfl
  have hclosed : pending.any isOpening = false := by
    rw [List.any_eq_false]
    intro token ht
    rw [isOpening, (hpending token ht).1]
    decide
  rw [List.append_nil, List.append_nil] at hrun
  rw [Rpn.arrange, hrun, ho, arrangeFrom, drain, hclosed]
  rfl

/-- The tokens that write an expression, with unknown signs as the loosest ones between operands,
come out in the post-order of its tree. -/
theorem arrange_eq_postOrder {tokens : List Token} {e : Expression}
    (h : Grammar.Derives (-1) (-1) tokens e) : arrange tokens = .ok e.postOrder :=
  (readsAs_postOrder h).arrange

/-- An unknown sign stands behind both of its operands. -/
theorem arrange_unknown_sign :
    arrange [.operator "-", .number "2", .operator "$", .identifier "f", .opening,
        .identifier "x", .closing] =
      .ok [.number "2", .operator "neg", .identifier "x", .identifier "f", .operator "$"] := by
  have hleft : Grammar.Derives (-1) (-1) [.operator "-", .number "2"] (.front "-" (.number "2")) :=
    (Grammar.Derives.front (by decide) (.number "2")).loosen (by decide) (by decide)
  have hargument : Grammar.Derives (-1) (-1) [.identifier "x"] (.name "x") :=
    (Grammar.Derives.name "x").loosen (by decide) (by decide)
  have hright := (Grammar.Derives.call "f" hargument).loosen
    (by decide : -1 + 1 ≤ (7 : Int)) (by decide)
  exact arrange_eq_postOrder (.leftward (.inl ⟨rfl, by decide⟩) hleft hright)

end Reckoner.Rpn
