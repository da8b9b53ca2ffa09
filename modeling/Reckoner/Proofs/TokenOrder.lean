import Reckoner.Proofs.Places

/-!
# The order of the tokens

An operand comes out before all tokens behind it. The name of a called function comes out between
the tokens of its group and those behind the group: it waits below the opening parenthesis, and no
step before the closing one that belongs to it reaches down to there.
-/

namespace Reckoner.Rpn

/-- The parenthesis at one place is closed by that at another. -/
structure Pairs (tokens : List Token) (first last : Nat) : Prop where
  /-- The one opens. -/
  opens : kindAt tokens first = some .opening
  /-- The other closes. -/
  closes : kindAt tokens last = some .closing
  /-- It stands behind the first. -/
  before : first < last
  /-- The parentheses between the two are balanced. -/
  between : Closes 0 (tokens.extract (first + 1) last)

/-- The places of a row in the order in which their tokens come out. -/
structure Rearranges (tokens output : List Token) (order : List Nat) : Prop where
  /-- Every token comes out once, parentheses apart. -/
  complete : order.Perm ((List.range tokens.length).filter (isShown tokens))
  /-- It comes out as its place reads it. -/
  reading : output.map some = order.map (shownAt tokens)
  /-- An operand comes out before all tokens behind it, operands and operators and names. -/
  operands : ∀ place later, OperandAt tokens place → isShown tokens later = true → place < later →
    [place, later].Sublist order
  /-- A called name comes out after the tokens of its group and before those behind the group. -/
  calls : ∀ place, CallAt tokens place → ∃ last, Pairs tokens (place + 1) last ∧
    ∀ other, isShown tokens other = true →
      (place < other → other < last → [other, place].Sublist order) ∧
        (last < other → [place, other].Sublist order)

section Groups

variable {tokens : List Token} {place other : Nat} {held moved after order : List Nat}

/-- An operand moves out, and nothing else changes. -/
theorem MovesAt.of_operand (h : MovesAt tokens held place moved after)
    (ho : OperandAt tokens place) : moved = [place] ∧ after = held := by
  -- all other steps are of another kind of token
  cases h with
  | pass => exact ⟨rfl, rfl⟩
  | wait kind => grind [OperandAt, CallAt, opensAt]
  | operator kind => grind [OperandAt]
  | group kind => grind [OperandAt]
  | call kind => grind [OperandAt]

/-- An opening parenthesis and a called name wait. -/
theorem MovesAt.of_wait (h : MovesAt tokens held place moved after)
    (hw : opensAt tokens place = true ∨ CallAt tokens place) :
    moved = [] ∧ after = place :: held := by
  cases h with
  | pass operand => grind [OperandAt, CallAt, opensAt]
  | wait => exact ⟨rfl, rfl⟩
  | operator kind => grind [CallAt, opensAt]
  | group kind => grind [CallAt, opensAt]
  | call kind => grind [CallAt, opensAt]

/-- What comes off a stack without one of its places comes from above this place. -/
theorem exists_above {taken kept above below : List Nat} {corner : Nat}
    (h : taken ++ kept = above ++ corner :: below) (hc : corner ∉ taken) :
    ∃ more, above = taken ++ more ∧ kept = more ++ corner :: below := by
  obtain ⟨more, habove, hkept⟩ | ⟨more, htaken, hbelow⟩ := List.append_eq_append_iff.mp h
  · exact ⟨more, habove, hkept⟩
  · cases more with
    | nil => exact ⟨[], by rw [htaken, List.append_nil, List.append_nil], hbelow.symm⟩
    | cons first more =>
      obtain ⟨rfl, -⟩ := List.cons.inj hbelow
      exact absurd (htaken ▸ List.mem_append_right _ List.mem_cons_self) hc

variable {above below : List Nat} {corner : Nat}

/-- A place at which a parenthesis opens is not among those at which none does. -/
theorem notMem_clear {places : List Nat} (h : ∀ other ∈ places, opensAt tokens other = false)
    (hc : opensAt tokens corner = true) : corner ∉ places := by
  intro hm
  rw [h corner hm] at hc
  cases hc

/-- Where a parenthesis is open above a corner, a closing one does not reach down to the corner. -/
theorem exists_above_of_closing {inside rest : List Nat} {bracket outer : Nat}
    (h : inside ++ bracket :: rest = above ++ corner :: below)
    (clear : ∀ other ∈ inside, opensAt tokens other = false)
    (opened : opensAt tokens bracket = true) (hc : opensAt tokens corner = true)
    (hdepth : above.countP (opensAt tokens) = outer + 1) :
    ∃ more, rest = more ++ corner :: below ∧ more.countP (opensAt tokens) = outer := by
  obtain ⟨more, rfl, hrest⟩ := exists_above h (notMem_clear clear hc)
  rw [List.countP_append, countP_clear clear, Nat.zero_add] at hdepth
  cases more with
  | nil => cases hdepth
  | cons first more =>
    obtain ⟨rfl, hbelow⟩ := List.cons.inj hrest
    rw [List.countP_cons_of_pos opened, Nat.add_right_cancel_iff] at hdepth
    exact ⟨more, hbelow, hdepth⟩

/-- Where nothing is open above a corner, it is what a closing parenthesis closes. -/
theorem corner_of_closing {inside rest : List Nat} {bracket : Nat}
    (h : inside ++ bracket :: rest = above ++ corner :: below)
    (clear : ∀ other ∈ inside, opensAt tokens other = false)
    (opened : opensAt tokens bracket = true) (hc : opensAt tokens corner = true)
    (hdepth : above.countP (opensAt tokens) = 0) : inside = above ∧ rest = below := by
  obtain ⟨more, rfl, hrest⟩ := exists_above h (notMem_clear clear hc)
  cases more with
  | nil => exact ⟨(List.append_nil inside).symm, (List.cons.inj hrest).2⟩
  | cons first more =>
    obtain ⟨rfl, -⟩ := List.cons.inj hrest
    rw [List.countP_append, List.countP_cons_of_pos opened] at hdepth
    cases hdepth

/-- A step in a group leaves its opening parenthesis and all below it waiting, and the rest of the
group closes what is open above. -/
theorem MovesAt.inside {inside : List Token} {token : Token}
    (h : MovesAt tokens (above ++ corner :: below) place moved after)
    (htoken : tokens[place]? = some token) (hc : opensAt tokens corner = true)
    (hcloses : Closes (above.countP (opensAt tokens)) (token :: inside)) :
    ∃ more, after = more ++ corner :: below ∧ Closes (more.countP (opensAt tokens)) inside := by
  have hkind {kind : Token.Kind} (hk : kindAt tokens place = some kind) : token.kind = kind :=
    Option.some.inj ((kindAt_of_getElem? htoken).symm.trans hk)
  cases h with
  | pass operand =>
    refine ⟨above, rfl, ?_⟩
    rcases operand with hk | ⟨hk, -⟩ <;> simpa only [Closes, hkind hk] using hcloses
  | wait kind =>
    refine ⟨place :: above, rfl, ?_⟩
    rcases kind with ho | ⟨hk, -⟩
    · rw [List.countP_cons_of_pos ho]
      simpa only [Closes, hkind (beq_iff_eq.mp ho)] using hcloses
    · rw [List.countP_cons_of_neg (by simp [opensAt_of_kindAt hk])]
      simpa only [Closes, hkind hk] using hcloses
  | @operator taken kept kind split clear =>
    obtain ⟨more, rfl, rfl⟩ := exists_above split.symm (notMem_clear clear hc)
    refine ⟨place :: more, rfl, ?_⟩
    rw [List.countP_append, countP_clear clear, Nat.zero_add] at hcloses
    rw [List.countP_cons_of_neg (by simp [opensAt_of_kindAt kind])]
    simpa only [Closes, hkind kind] using hcloses
  | @group taken under bracket kind split clear opened uncalled =>
    simp only [Closes, hkind kind] at hcloses
    obtain ⟨outer, hdepth, hrest⟩ := hcloses
    obtain ⟨more, hmore, rfl⟩ := exists_above_of_closing split.symm clear opened hc hdepth
    exact ⟨more, hmore, hrest⟩
  | @call taken under bracket caller kind split clear opened named =>
    simp only [Closes, hkind kind] at hcloses
    obtain ⟨outer, hdepth, hrest⟩ := hcloses
    obtain ⟨more, hmore, rfl⟩ := exists_above_of_closing split.symm clear opened hc hdepth
    cases more with
    | nil =>
      obtain ⟨rfl, -⟩ := List.cons.inj hmore
      rw [opensAt_of_kindAt named] at hc
      cases hc
    | cons first more =>
      obtain ⟨rfl, hbelow⟩ := List.cons.inj hmore
      rw [List.countP_cons_of_neg (by simp [opensAt_of_kindAt named])] at hrest
      exact ⟨more, hbelow, hrest⟩

/-- A closing parenthesis moves out what waits above its opening one, and the name below. -/
theorem MovesAt.of_call {caller : Nat}
    (h : MovesAt tokens (above ++ corner :: caller :: below) place moved after)
    (hkind : kindAt tokens place = some .closing) (hc : opensAt tokens corner = true)
    (hcaller : kindAt tokens caller = some .identifier)
    (hdepth : above.countP (opensAt tokens) = 0) :
    moved = above ++ [caller] ∧ after = below := by
  cases h with
  | pass operand => grind [OperandAt]
  | wait kind => grind [CallAt, opensAt]
  | operator kind => grind
  | group kind split clear opened uncalled =>
    obtain ⟨-, rfl⟩ := corner_of_closing split.symm clear opened hc hdepth
    exact absurd hcaller (uncalled caller rfl)
  | call kind split clear opened named =>
    obtain ⟨rfl, hbelow⟩ := corner_of_closing split.symm clear opened hc hdepth
    obtain ⟨rfl, rfl⟩ := List.cons.inj hbelow
    exact ⟨rfl, rfl⟩

/-- A group comes out to its end, and then the name that calls it. The places behind the group come
out over what waited in front of the name. -/
theorem OrdersFrom.group {inside back : List Token} {closing : Token} {caller : Nat}
    (h : OrdersFrom tokens place (above ++ corner :: caller :: below) order)
    (hdrop : tokens.drop place = inside ++ closing :: back) (hclosing : closing.kind = .closing)
    (hcloses : Closes (above.countP (opensAt tokens)) inside) (hc : opensAt tokens corner = true)
    (hcaller : kindAt tokens caller = some .identifier) :
    ∃ out rest, order = out ++ caller :: rest ∧
      OrdersFrom tokens (place + inside.length + 1) below rest := by
  -- on the tokens of the group that are left, over whatever waits above its opening parenthesis
  induction inside generalizing place above order with
  | nil =>
    obtain ⟨htoken, -⟩ := getElem?_of_drop hdrop
    cases h with
    | finish done => grind
    | @step _ _ moved after rest moves hrest =>
      have hkind : kindAt tokens place = some .closing := by
        rw [kindAt_of_getElem? htoken, hclosing]
      obtain ⟨rfl, rfl⟩ := moves.of_call hkind hc hcaller hcloses
      exact ⟨above, rest, by rw [List.append_assoc, List.singleton_append], hrest⟩
  | cons token inside ih =>
    obtain ⟨htoken, hback⟩ := getElem?_of_drop hdrop
    cases h with
    | finish done => grind
    | @step _ _ moved after rest moves hrest =>
      obtain ⟨more, rfl, hmore⟩ := moves.inside htoken hc hcloses
      obtain ⟨out, rest, rfl, hlast⟩ := ih hrest hback hmore
      refine ⟨moved ++ out, rest, (List.append_assoc moved out _).symm, ?_⟩
      rw [List.length_cons, show place + (inside.length + 1) = place + 1 + inside.length by omega]
      exact hlast

/-- What closes more than a group opens goes on behind it with the parenthesis that closes it. -/
theorem exists_matching {row : List Token} {depth outer : Nat}
    (h : Closes (depth + outer + 1) row) :
    ∃ inside closing back, row = inside ++ closing :: back ∧ closing.kind = .closing ∧
      Closes depth inside := by
  induction row generalizing depth with
  | nil => cases h
  | cons token row ih =>
    unfold Closes at h
    cases hk : token.kind with
    | opening =>
      rw [hk] at h
      have hmore : Closes (depth + 1 + outer + 1) row := by
        rw [show depth + 1 + outer + 1 = depth + outer + 1 + 1 by omega]
        exact h
      obtain ⟨inside, closing, back, rfl, hclosing, hcloses⟩ := ih hmore
      refine ⟨token :: inside, closing, back, rfl, hclosing, ?_⟩
      simpa only [Closes, hk] using hcloses
    | closing =>
      cases depth with
      | zero => exact ⟨[], token, row, rfl, hk, rfl⟩
      | succ depth =>
        rw [hk] at h
        obtain ⟨inner, hinner, hrest⟩ := h
        have hmore : Closes (depth + outer + 1) row := by
          rw [show depth + outer + 1 = inner by omega]
          exact hrest
        obtain ⟨inside, closing, back, rfl, hclosing, hcloses⟩ := ih hmore
        refine ⟨token :: inside, closing, back, rfl, hclosing, ?_⟩
        simp only [Closes, hk]
        exact ⟨depth, rfl, hcloses⟩
    | _ =>
      rw [hk] at h
      obtain ⟨inside, closing, back, rfl, hclosing, hcloses⟩ := ih h
      refine ⟨token :: inside, closing, back, rfl, hclosing, ?_⟩
      simpa only [Closes, hk] using hcloses

/-- The tokens behind the first one close what is open behind it. -/
theorem exists_closes_tail {row : List Token} {token : Token} {depth : Nat}
    (h : Closes depth (token :: row)) : ∃ behind, Closes behind row := by
  unfold Closes at h
  cases hk : token.kind with
  | opening =>
    rw [hk] at h
    exact ⟨depth + 1, h⟩
  | closing =>
    rw [hk] at h
    obtain ⟨outer, -, hrow⟩ := h
    exact ⟨outer, hrow⟩
  | _ =>
    rw [hk] at h
    exact ⟨depth, h⟩

/-- So do those behind any number of tokens. -/
theorem exists_closes_drop {row : List Token} {depth : Nat} (h : Closes depth row) (count : Nat) :
    ∃ behind, Closes behind (row.drop count) := by
  induction row generalizing depth count with
  | nil => exact ⟨0, by rw [List.drop_nil]; rfl⟩
  | cons token row ih =>
    cases count with
    | zero => exact ⟨depth, h⟩
    | succ count =>
      obtain ⟨behind, hrow⟩ := exists_closes_tail h
      exact ih hrow count

/-- An operand comes out before all else. -/
theorem OrdersFrom.of_operand (h : OrdersFrom tokens place held order)
    (ho : OperandAt tokens place) :
    ∃ rest, order = place :: rest ∧ OrdersFrom tokens (place + 1) held rest := by
  cases h with
  | finish done => exact absurd ho.lt_length (Nat.not_lt.mpr done)
  | @step _ _ moved after rest moves hrest =>
    obtain ⟨rfl, rfl⟩ := moves.of_operand ho
    exact ⟨rest, rfl, hrest⟩

/-- Before an opening parenthesis and a called name nothing comes out. -/
theorem OrdersFrom.of_wait (h : OrdersFrom tokens place held order)
    (hw : opensAt tokens place = true ∨ CallAt tokens place) :
    OrdersFrom tokens (place + 1) (place :: held) order := by
  cases h with
  | finish done => exact absurd (lt_length_of_wait hw) (Nat.not_lt.mpr done)
  | step moves hrest =>
    obtain ⟨rfl, rfl⟩ := moves.of_wait hw
    exact hrest

/-- The group behind a called name ends somewhere. Until there what waited in front of the name goes
on waiting, and then the name comes out. -/
theorem OrdersFrom.exists_group (h : OrdersFrom tokens place held order)
    (hcall : CallAt tokens place) (hbalanced : Closes 0 tokens) :
    ∃ last out rest, Pairs tokens (place + 1) last ∧ order = out ++ place :: rest ∧
      OrdersFrom tokens (last + 1) held rest := by
  obtain ⟨hname, hopens⟩ := hcall
  have hkind : kindAt tokens (place + 1) = some .opening := beq_iff_eq.mp hopens
  have hinside : OrdersFrom tokens (place + 2) ([] ++ (place + 1) :: place :: held) order :=
    (h.of_wait (.inr ⟨hname, hopens⟩)).of_wait (.inl hopens)
  obtain ⟨opening, htoken, hopening⟩ := Option.map_eq_some_iff.mp hkind
  have hdrop : tokens.drop (place + 1) = opening :: tokens.drop (place + 2) := by
    obtain ⟨hlt, rfl⟩ := List.getElem?_eq_some_iff.mp htoken
    exact List.drop_eq_getElem_cons hlt
  obtain ⟨outer, houter⟩ := exists_closes_drop hbalanced (place + 1)
  rw [hdrop] at houter
  simp only [Closes, hopening] at houter
  rw [← Nat.zero_add outer] at houter
  obtain ⟨inside, closing, back, hrow, hclosing, hcloses⟩ := exists_matching houter
  obtain ⟨out, rest, rfl, hrest⟩ := hinside.group hrow hclosing hcloses hopens hname
  refine ⟨place + 2 + inside.length, out, rest, ⟨hkind, ?_, by omega, ?_⟩, rfl, hrest⟩
  · rw [kindAt, ← List.getElem?_drop, hrow, List.getElem?_append_right (Nat.le_refl _),
      Nat.sub_self, List.getElem?_cons_zero, Option.map_some, hclosing]
  · change Closes 0 ((tokens.drop (place + 2)).take (place + 2 + inside.length - (place + 2)))
    rw [hrow, Nat.add_sub_cancel_left, List.take_left]
    exact hcloses

/-- An operand comes out before every token behind it. -/
theorem OrdersFrom.operand_first (h : OrdersFrom tokens 0 [] order) (ho : OperandAt tokens place)
    (hshown : isShown tokens other = true) (hlt : place < other) :
    [place, other].Sublist order := by
  obtain ⟨held, rest, hsuffix, hrest, -⟩ := h.reach (Nat.le_of_lt ho.lt_length)
  obtain ⟨behind, rfl, hbehind⟩ := hrest.of_operand ho
  have hmem : other ∈ behind := hbehind.mem_iff.mpr (.inr ⟨hlt, hshown⟩)
  exact ((List.singleton_sublist.mpr hmem).cons_cons place).trans hsuffix.sublist

/-- A called name comes out between its group and what is behind that. -/
theorem OrdersFrom.call_between (h : OrdersFrom tokens 0 [] order) (hcall : CallAt tokens place)
    (hbalanced : Closes 0 tokens) :
    ∃ last, Pairs tokens (place + 1) last ∧ ∀ other, isShown tokens other = true →
      (place < other → other < last → [other, place].Sublist order) ∧
        (last < other → [place, other].Sublist order) := by
  obtain ⟨held, rest, hsuffix, hrest, hheld⟩ := h.reach (Nat.le_of_lt (lt_of_kindAt hcall.1))
  obtain ⟨last, out, behind, hpairs, rfl, hbehind⟩ := hrest.exists_group hcall hbalanced
  refine ⟨last, hpairs, fun other hshown => ⟨fun hafter hbefore => ?_, fun hafter => ?_⟩⟩
  · -- a token of the group is not the name and does not come out behind it, so it comes out before
    have hall : other ∈ out ++ place :: behind :=
      hrest.mem_iff.mpr (.inr ⟨Nat.le_of_lt hafter, hshown⟩)
    have hname : other ≠ place := Nat.ne_of_gt hafter
    have hbehind : other ∉ behind := by
      rw [hbehind.mem_iff]
      rintro (⟨hwaits, -⟩ | ⟨hlast, -⟩)
      · exact absurd (hheld other hwaits) (Nat.lt_asymm hafter)
      · exact absurd hlast (by omega)
    have hmem : other ∈ out := by simpa [hname, hbehind] using hall
    have hpair : [other, place].Sublist (out ++ place :: behind) :=
      (List.singleton_sublist.mpr hmem).append (List.singleton_sublist.mpr List.mem_cons_self)
    exact hpair.trans hsuffix.sublist
  · have hmem : other ∈ behind := hbehind.mem_iff.mpr (.inr ⟨hafter, hshown⟩)
    have hpair : [place, other].Sublist (out ++ place :: behind) :=
      ((List.singleton_sublist.mpr hmem).cons_cons place).trans (List.sublist_append_right out _)
    exact hpair.trans hsuffix.sublist

end Groups

/-- The arrangement of a row is its tokens, parentheses apart, each as its place reads it: a sign in
front of an operand as another operator, everything else as it is. Operands come out before what is
behind them, so that they keep their order and no operator overtakes one, and the name of a function
comes out between its group and what is behind that. -/
theorem arrange_rearranges {tokens output : List Token} (h : arrange tokens = .ok output) :
    ∃ order, Rearranges tokens output order := by
  have hstart : isFrontPosition none = true ↔ FrontAt tokens 0 := ⟨fun _ => .inl rfl, fun _ => rfl⟩
  have hempty : [].map some = [].map (shownAt tokens) := rfl
  obtain ⟨order, horder, hreading⟩ := exists_ordersFrom h List.drop_zero hstart hempty
  have hcomplete : order.Perm ((List.range tokens.length).filter (isShown tokens)) := by
    rw [List.range_eq_range']
    exact horder.perm
  exact ⟨order, hcomplete, hreading, fun _ _ => horder.operand_first,
    fun _ hcall => horder.call_between hcall (closes_of_arrangeFrom h)⟩

/-- A function of a sum comes out behind the sum and before what is behind its group. -/
theorem arrange_rearranges_function :
    arrange [.operator "-", .identifier "f", .opening, .number "1", .operator "+", .identifier "x",
        .closing, .operator "*", .number "2"] =
      .ok [.number "1", .identifier "x", .operator "+", .identifier "f", .operator "neg",
        .number "2", .operator "*"] ∧
    ∃ order, Rearranges [.operator "-", .identifier "f", .opening, .number "1", .operator "+",
        .identifier "x", .closing, .operator "*", .number "2"]
      [.number "1", .identifier "x", .operator "+", .identifier "f", .operator "neg",
        .number "2", .operator "*"] order :=
  ⟨rfl, arrange_rearranges rfl⟩

end Reckoner.Rpn
