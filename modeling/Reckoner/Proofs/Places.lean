import Reckoner.Proofs.Conservation

/-!
# The places of the tokens

What the arrangement of a row does with the tokens, it does with their places in the row: each step
moves some places out and leaves others waiting, and all together tell an order in which the places
come out. Tokens of a row may be alike, and their places are not. So the order tells of each token
when it comes out: none is lost and none comes out twice, parentheses apart.
-/

namespace Reckoner.Rpn

/-- The kind of the token at a place. -/
def kindAt (tokens : List Token) (place : Nat) : Option Token.Kind :=
  tokens[place]?.map Token.kind

/-- Whether a parenthesis opens at a place. -/
def opensAt (tokens : List Token) (place : Nat) : Bool :=
  kindAt tokens place == some .opening

/-- Whether the token at a place comes out: all but the parentheses do. -/
def isShown (tokens : List Token) (place : Nat) : Bool :=
  (kindAt tokens place).any fun kind => kind != .opening && kind != .closing

/-- A place at the start of the row, behind an operator or behind an opening parenthesis. -/
def FrontAt (tokens : List Token) (place : Nat) : Prop :=
  place = 0 ∨ kindAt tokens (place - 1) = some .operator ∨ opensAt tokens (place - 1) = true

instance (tokens : List Token) (place : Nat) : Decidable (FrontAt tokens place) :=
  inferInstanceAs (Decidable (_ ∨ _ ∨ _))

/-- What comes out for the token at a place: another operator for a sign in front of its operand,
and the token itself otherwise. -/
def shownAt (tokens : List Token) (place : Nat) : Option Token :=
  tokens[place]?.map fun token =>
    if FrontAt tokens place ∧ token = .operator "-" then .operator "neg"
    else if FrontAt tokens place ∧ token = .operator "+" then .operator "pos"
    else token

/-- A name with an opening parenthesis directly behind it. -/
def CallAt (tokens : List Token) (place : Nat) : Prop :=
  kindAt tokens place = some .identifier ∧ opensAt tokens (place + 1) = true

/-- A number, or a name without an opening parenthesis directly behind it. -/
def OperandAt (tokens : List Token) (place : Nat) : Prop :=
  kindAt tokens place = some .number ∨
    kindAt tokens place = some .identifier ∧ opensAt tokens (place + 1) = false

/-- What a step moves out and what waits then, told by the places of the tokens. -/
inductive MovesAt (tokens : List Token) (held : List Nat) (place : Nat) :
    List Nat → List Nat → Prop where
  /-- An operand moves out. -/
  | pass (operand : OperandAt tokens place) : MovesAt tokens held place [place] held
  /-- An opening parenthesis and a called name wait. -/
  | wait (kind : opensAt tokens place = true ∨ CallAt tokens place) :
      MovesAt tokens held place [] (place :: held)
  /-- An operator moves out some that wait on top, and waits itself. -/
  | operator {taken kept : List Nat} (kind : kindAt tokens place = some .operator)
      (split : held = taken ++ kept) (clear : ∀ other ∈ taken, opensAt tokens other = false) :
      MovesAt tokens held place taken (place :: kept)
  /-- A closing parenthesis moves out what waits above its opening one. -/
  | group {inside below : List Nat} {bracket : Nat} (kind : kindAt tokens place = some .closing)
      (split : held = inside ++ bracket :: below)
      (clear : ∀ other ∈ inside, opensAt tokens other = false)
      (opened : opensAt tokens bracket = true)
      (uncalled : ∀ top ∈ below.head?, kindAt tokens top ≠ some .identifier) :
      MovesAt tokens held place inside below
  /-- So it does behind the argument of a function, and then moves out the name. -/
  | call {inside below : List Nat} {bracket caller : Nat}
      (kind : kindAt tokens place = some .closing)
      (split : held = inside ++ bracket :: caller :: below)
      (clear : ∀ other ∈ inside, opensAt tokens other = false)
      (opened : opensAt tokens bracket = true)
      (named : kindAt tokens caller = some .identifier) :
      MovesAt tokens held place (inside ++ [caller]) below

/-- The order in which the places from one on come out, over those that wait. -/
inductive OrdersFrom (tokens : List Token) : Nat → List Nat → List Nat → Prop where
  /-- At the end all that waits comes out. -/
  | finish {place : Nat} {held : List Nat} (done : tokens.length ≤ place)
      (clear : ∀ other ∈ held, opensAt tokens other = false) : OrdersFrom tokens place held held
  /-- What a step moves out comes out before all else. -/
  | step {place : Nat} {held moved after order : List Nat}
      (moves : MovesAt tokens held place moved after)
      (rest : OrdersFrom tokens (place + 1) after order) :
      OrdersFrom tokens place held (moved ++ order)

section Places

variable {tokens rest waiting moved after : List Token} {token : Token} {place other : Nat}
  {held : List Nat}

/-- The row behind a place goes on with the token there. -/
theorem getElem?_of_drop (h : tokens.drop place = token :: rest) :
    tokens[place]? = some token ∧ tokens.drop (place + 1) = rest := by
  constructor
  · rw [← List.head?_drop, h, List.head?_cons]
  · rw [← List.tail_drop, h, List.tail_cons]

/-- The kind at a place is that of the token there. -/
theorem kindAt_of_getElem? (h : tokens[place]? = some token) :
    kindAt tokens place = some token.kind := by
  rw [kindAt, h, Option.map_some]

/-- A parenthesis opens at a place by the kind there. -/
theorem opensAt_of_kindAt {kind : Token.Kind} (h : kindAt tokens place = some kind) :
    opensAt tokens place = (kind == .opening) := by
  rw [opensAt, h]
  rfl

/-- A parenthesis opens where the token is one. -/
theorem opensAt_of_getElem? (h : tokens[place]? = some token) :
    opensAt tokens place = isOpening token := by
  rw [opensAt_of_kindAt (kindAt_of_getElem? h), isOpening]

/-- A place with a token is one of the row. -/
theorem lt_of_kindAt {kind : Token.Kind} (h : kindAt tokens place = some kind) :
    place < tokens.length := by
  obtain ⟨token, htoken, -⟩ := Option.map_eq_some_iff.mp h
  exact (List.getElem?_eq_some_iff.mp htoken).1

/-- A number or a name is one of the row. -/
theorem OperandAt.lt_length (h : OperandAt tokens place) : place < tokens.length :=
  h.elim lt_of_kindAt fun hname => lt_of_kindAt hname.1

/-- So is an opening parenthesis or a called name. -/
theorem lt_length_of_wait (h : opensAt tokens place = true ∨ CallAt tokens place) :
    place < tokens.length :=
  h.elim (fun hopens => lt_of_kindAt (beq_iff_eq.mp hopens)) fun hcall => lt_of_kindAt hcall.1

/-- Another token than a parenthesis comes out. -/
theorem isShown_of_kindAt {kind : Token.Kind} (h : kindAt tokens place = some kind) :
    isShown tokens place = (kind != .opening && kind != .closing) := by
  rw [isShown, h, Option.any_some]

/-- A token that comes out has its kind. -/
theorem kindAt_of_isShown (h : isShown tokens place = true) :
    ∃ kind, kindAt tokens place = some kind ∧ kind ≠ .opening ∧ kind ≠ .closing := by
  obtain ⟨kind, hkind, hshown⟩ := (Option.any_eq_true _ _).mp h
  simp only [Bool.and_eq_true, bne_iff_ne] at hshown
  exact ⟨kind, hkind, hshown⟩

/-- What comes out for a token is of its kind. -/
theorem map_kind_shownAt (tokens : List Token) (place : Nat) :
    (shownAt tokens place).map Token.kind = kindAt tokens place := by
  rw [shownAt, kindAt, Option.map_map]
  congr 1
  funext token
  change Token.kind (if _ then _ else _) = _
  split
  next hminus => rw [hminus.2]; rfl
  next =>
    split
    next hplus => rw [hplus.2]; rfl
    next => rfl

/-- All tokens but operators come out as they are. -/
theorem shownAt_of_kind_ne (h : tokens[place]? = some token) (hkind : token.kind ≠ .operator) :
    shownAt tokens place = some token := by
  have hne (sign : String) : token ≠ .operator sign := fun he => hkind (he ▸ rfl)
  rw [shownAt, h, Option.map_some, if_neg fun hs => hne _ hs.2, if_neg fun hs => hne _ hs.2]

/-- An operator comes out as it is read. -/
theorem shownAt_operator {previous : Option Token} (h : tokens[place]? = some token)
    (hkind : token.kind = .operator)
    (hfront : isFrontPosition previous = true ↔ FrontAt tokens place) :
    shownAt tokens place = some (readOperator previous token) := by
  obtain ⟨_, sign⟩ := token
  cases hkind
  rw [shownAt, h, Option.map_some]
  cases hp : isFrontPosition previous with
  | false =>
    have hbehind : ¬ FrontAt tokens place := fun hf => Bool.false_ne_true (hp ▸ hfront.mpr hf)
    rw [readOperator_behind hp, if_neg fun hs => hbehind hs.1, if_neg fun hs => hbehind hs.1]
  | true =>
    have hread := readOperator_front hp sign
    rw [Token.operator] at hread
    rw [hread]
    simp only [hfront.mp hp, Token.operator, Token.mk.injEq, true_and]
    by_cases hminus : sign = "-"
    · rw [if_pos hminus, if_pos hminus]
    by_cases hplus : sign = "+"
    · rw [if_neg hminus, if_neg hminus, if_pos hplus, if_pos hplus]
    · rw [if_neg hminus, if_neg hminus, if_neg hplus, if_neg hplus]

/-- The kind at a place is that of what comes out for the token there. -/
theorem kindAt_of_shownAt (h : shownAt tokens place = some token) :
    kindAt tokens place = some token.kind := by
  rw [← map_kind_shownAt, h, Option.map_some]

/-- Where no parenthesis waits, none opens at the places that wait. -/
theorem clear_of_shown (h : waiting.map some = held.map (shownAt tokens))
    (hclear : ∀ t ∈ waiting, isOpening t = false) :
    ∀ other ∈ held, opensAt tokens other = false := by
  intro other hm
  have hshown : shownAt tokens other ∈ waiting.map some := h ▸ List.mem_map_of_mem hm
  obtain ⟨t, ht, he⟩ := List.mem_map.mp hshown
  rw [opensAt_of_kindAt (kindAt_of_shownAt he.symm)]
  exact hclear t ht

/-- Where no name waits on top, the topmost place holds none. -/
theorem uncalled_of_shown (h : waiting.map some = held.map (shownAt tokens))
    (huncalled : ∀ top ∈ waiting.head?, top.kind ≠ .identifier) :
    ∀ top ∈ held.head?, kindAt tokens top ≠ some .identifier := by
  intro top htop hname
  obtain ⟨below, rfl⟩ := List.head?_eq_some_iff.mp htop
  obtain ⟨t, under, rfl, ht, -⟩ := List.map_eq_cons_iff.mp h
  rw [kindAt_of_shownAt ht.symm] at hname
  exact huncalled t rfl (Option.some.inj hname)

end Places

section Steps

variable {tokens waiting moved after : List Token} {previous next : Option Token} {token : Token}
  {place : Nat} {held : List Nat}

/-- A step on tokens is one on their places. -/
theorem Moves.at_places (h : Moves waiting previous token next moved after)
    (htoken : tokens[place]? = some token) (hnext : tokens[place + 1]? = next)
    (hfront : isFrontPosition previous = true ↔ FrontAt tokens place)
    (hheld : waiting.map some = held.map (shownAt tokens)) :
    ∃ out left, MovesAt tokens held place out left ∧
      moved.map some = out.map (shownAt tokens) ∧ after.map some = left.map (shownAt tokens) := by
  have hkind := kindAt_of_getElem? htoken
  have hopens : opensAt tokens (place + 1) = next.any isOpening := by
    rw [opensAt, kindAt, hnext]
    cases next <;> rfl
  cases h with
  | pass kind =>
    have hself : shownAt tokens place = some token := by
      refine shownAt_of_kind_ne htoken ?_
      rcases kind with hk | ⟨hk, -⟩ <;> rw [hk] <;> decide
    refine ⟨[place], held, .pass ?_, by rw [List.map_singleton, List.map_singleton, hself], hheld⟩
    exact kind.imp (fun hk => by rw [hkind, hk]) fun hk => ⟨by rw [hkind, hk.1], hopens ▸ hk.2⟩
  | wait kind =>
    have hself : shownAt tokens place = some token := by
      refine shownAt_of_kind_ne htoken ?_
      rcases kind with hk | ⟨hk, -⟩ <;> rw [hk] <;> decide
    refine ⟨[], place :: held, .wait ?_, rfl, by rw [List.map_cons, List.map_cons, hself, hheld]⟩
    refine kind.imp (fun hk => ?_) fun hk => ⟨by rw [hkind, hk.1], hopens ▸ hk.2⟩
    rw [opensAt_of_getElem? htoken, isOpening_of_kind hk]
    rfl
  | @operator taken kept kind split yielding staying =>
    have hself := shownAt_operator htoken kind hfront
    rw [split, List.map_append] at hheld
    obtain ⟨out, left, rfl, hout, hleft⟩ := List.map_eq_append_iff.mp hheld.symm
    refine ⟨out, place :: left, .operator (by rw [hkind, kind]) rfl ?_, hout.symm, ?_⟩
    · exact clear_of_shown hout.symm fun t ht => isOpening_of_yields (yielding t ht)
    · rw [List.map_cons, List.map_cons, hself, hleft]
  | @group inside below bracket kind split clear opened uncalled =>
    rw [split, List.map_append, List.map_cons] at hheld
    obtain ⟨out, left, rfl, hout, hleft⟩ := List.map_eq_append_iff.mp hheld.symm
    obtain ⟨corner, left, rfl, hcorner, hleft⟩ := List.map_eq_cons_iff.mp hleft
    refine ⟨out, left, .group (by rw [hkind, kind]) rfl ?_ ?_ ?_, hout.symm, hleft.symm⟩
    · exact clear_of_shown hout.symm clear
    · rw [opensAt_of_kindAt (kindAt_of_shownAt hcorner)]
      exact opened
    · exact uncalled_of_shown hleft.symm uncalled
  | @call inside below bracket caller kind split clear opened named =>
    rw [split, List.map_append, List.map_cons, List.map_cons] at hheld
    obtain ⟨out, left, rfl, hout, hleft⟩ := List.map_eq_append_iff.mp hheld.symm
    obtain ⟨corner, left, rfl, hcorner, hleft⟩ := List.map_eq_cons_iff.mp hleft
    obtain ⟨name, left, rfl, hname, hleft⟩ := List.map_eq_cons_iff.mp hleft
    refine ⟨out ++ [name], left, .call (by rw [hkind, kind]) rfl ?_ ?_ ?_, ?_, hleft.symm⟩
    · exact clear_of_shown hout.symm clear
    · rw [opensAt_of_kindAt (kindAt_of_shownAt hcorner)]
      exact opened
    · rw [kindAt_of_shownAt hname, named]
    · rw [List.map_append, List.map_append, hout, List.map_singleton, List.map_singleton, hname]

/-- The arrangement of the tokens from a place on tells an order of the places. -/
theorem exists_ordersFrom {rest output : List Token}
    (h : arrangeFrom waiting previous rest = .ok output) (hrest : tokens.drop place = rest)
    (hfront : isFrontPosition previous = true ↔ FrontAt tokens place)
    (hheld : waiting.map some = held.map (shownAt tokens)) :
    ∃ order, OrdersFrom tokens place held order ∧
      output.map some = order.map (shownAt tokens) := by
  -- step by step the places that wait hold what waits, and a front position is one by its place
  induction rest generalizing waiting previous place held output with
  | nil =>
    rw [arrangeFrom, drain] at h
    split at h
    next => cases h
    next hopen =>
      cases h
      simp only [List.any_eq_true, not_exists, not_and, Bool.not_eq_true] at hopen
      exact ⟨held, .finish (List.drop_eq_nil_iff.mp hrest) (clear_of_shown hheld hopen), hheld⟩
  | cons token rest ih =>
    obtain ⟨moved, after, more, hs, hr, rfl⟩ := arrangeFrom_cons_eq_ok_iff.mp h
    obtain ⟨htoken, hdrop⟩ := getElem?_of_drop hrest
    have hnext : tokens[place + 1]? = rest.head? := by rw [← hdrop, List.head?_drop]
    obtain ⟨out, left, hmoves, hout, hleft⟩ :=
      (moves_of_step hs).at_places htoken hnext hfront hheld
    have hbehind : isFrontPosition (some token) = true ↔ FrontAt tokens (place + 1) := by
      rw [FrontAt, Nat.add_sub_cancel, kindAt_of_getElem? htoken, opensAt_of_getElem? htoken]
      simp [isFrontPosition, isOpening]
    obtain ⟨order, horder, hmore⟩ := ih hr hdrop hbehind hleft
    exact ⟨out ++ order, .step hmoves horder, by rw [List.map_append, List.map_append, hout, hmore]⟩

end Steps

section Runs

variable {tokens : List Token} {place other : Nat} {held moved after order : List Nat}

/-- A step loses no place, parentheses apart: what moves out and what waits then is what waited
before and the place itself. -/
theorem MovesAt.perm (h : MovesAt tokens held place moved after) :
    (moved ++ after.filter (!opensAt tokens ·)).Perm
      (held.filter (!opensAt tokens ·) ++ [place].filter (isShown tokens)) := by
  cases h with
  | pass operand =>
    have hshown : isShown tokens place = true := by
      rcases operand with hk | ⟨hk, -⟩ <;> rw [isShown_of_kindAt hk] <;> rfl
    rw [List.filter_cons_of_pos hshown]
    exact List.perm_append_comm
  | wait kind =>
    rcases kind with ho | ⟨hk, -⟩
    · have hshown : isShown tokens place = false := isShown_of_kindAt (beq_iff_eq.mp ho)
      rw [List.filter_cons_of_neg (by simp [ho]), List.filter_cons_of_neg (by simp [hshown]),
        List.filter_nil, List.append_nil, List.nil_append]
    · have ho : opensAt tokens place = false := opensAt_of_kindAt hk
      rw [List.filter_cons_of_pos (by simp [ho]), List.filter_cons_of_pos (isShown_of_kindAt hk)]
      exact (List.perm_append_singleton _ _).symm
  | @operator taken kept kind split clear =>
    have ho : opensAt tokens place = false := opensAt_of_kindAt kind
    rw [split, List.filter_append, filter_clear clear,
      List.filter_cons_of_pos (by simp [ho]), List.filter_cons_of_pos (isShown_of_kindAt kind),
      List.append_assoc]
    exact (List.perm_append_singleton _ _).symm.append_left _
  | @group inside below bracket kind split clear opened uncalled =>
    have hshown : isShown tokens place = false := isShown_of_kindAt kind
    rw [split, List.filter_append, filter_clear clear,
      List.filter_cons_of_neg (by simp [opened]), List.filter_cons_of_neg (by simp [hshown]),
      List.filter_nil, List.append_nil]
  | @call inside below bracket caller kind split clear opened named =>
    have hshown : isShown tokens place = false := isShown_of_kindAt kind
    have ho : opensAt tokens caller = false := opensAt_of_kindAt named
    rw [split, List.filter_append, filter_clear clear,
      List.filter_cons_of_neg (by simp [opened]), List.filter_cons_of_pos (by simp [ho]),
      List.filter_cons_of_neg (by simp [hshown]), List.filter_nil, List.append_nil,
      List.append_assoc, List.singleton_append]

/-- A step is one of the row. -/
theorem MovesAt.lt_length (h : MovesAt tokens held place moved after) : place < tokens.length := by
  cases h with
  | pass operand => exact operand.lt_length
  | wait kind => exact lt_length_of_wait kind
  | operator kind => exact lt_of_kindAt kind
  | group kind => exact lt_of_kindAt kind
  | call kind => exact lt_of_kindAt kind

/-- The places that wait and those from one on all come out, parentheses apart. -/
theorem OrdersFrom.perm (h : OrdersFrom tokens place held order) :
    order.Perm (held.filter (!opensAt tokens ·) ++
      (List.range' place (tokens.length - place)).filter (isShown tokens)) := by
  induction h with
  | finish done clear =>
    rw [Nat.sub_eq_zero_of_le done, List.range'_zero, List.filter_nil, List.append_nil,
      filter_clear clear]
  | @step place held moved after order moves rest ih =>
    have hlt := moves.lt_length
    have hrange : List.range' place (tokens.length - place) =
        [place] ++ List.range' (place + 1) (tokens.length - (place + 1)) := by
      rw [show tokens.length - place = tokens.length - (place + 1) + 1 by omega, List.range'_succ]
      rfl
    have hmore := ih.append_left moved
    rw [← List.append_assoc] at hmore
    rw [hrange, List.filter_append, ← List.append_assoc]
    exact hmore.trans (moves.perm.append_right _)

/-- What comes out waited, or stands at one of the places behind. -/
theorem OrdersFrom.mem_iff (h : OrdersFrom tokens place held order) :
    other ∈ order ↔ (other ∈ held ∧ opensAt tokens other = false) ∨
      (place ≤ other ∧ isShown tokens other = true) := by
  rw [h.perm.mem_iff, List.mem_append, List.mem_filter, List.mem_filter, List.mem_range'_1]
  have hlt : isShown tokens other = true → other < tokens.length := by
    intro hshown
    obtain ⟨kind, hkind, -⟩ := kindAt_of_isShown hshown
    exact lt_of_kindAt hkind
  rw [Bool.not_eq_true']
  refine or_congr Iff.rfl (and_congr_left fun hshown => ?_)
  have := hlt hshown
  omega

/-- A step leaves waiting its own place and such as waited before. -/
theorem MovesAt.mem_of_mem (h : MovesAt tokens held place moved after) (hm : other ∈ after) :
    other = place ∨ other ∈ held := by
  cases h with
  | pass => exact .inr hm
  | wait => exact List.mem_cons.mp hm
  | operator kind split clear =>
    rw [split]
    exact (List.mem_cons.mp hm).imp_right (List.mem_append_right _)
  | group kind split clear opened uncalled =>
    rw [split]
    exact .inr (List.mem_append_right _ (List.mem_cons_of_mem _ hm))
  | call kind split clear opened named =>
    rw [split]
    exact .inr (List.mem_append_right _ (List.mem_cons_of_mem _ (List.mem_cons_of_mem _ hm)))

/-- Every place is reached, with only places in front of it waiting then. -/
theorem OrdersFrom.reach (h : OrdersFrom tokens 0 [] order) (hle : place ≤ tokens.length) :
    ∃ held rest, rest <:+ order ∧ OrdersFrom tokens place held rest ∧
      ∀ other ∈ held, other < place := by
  induction place with
  | zero => exact ⟨[], order, List.suffix_rfl, h, nofun⟩
  | succ place ih =>
    obtain ⟨held, rest, hsuffix, hrest, hheld⟩ := ih (Nat.le_of_succ_le hle)
    cases hrest with
    | finish done => exact absurd done (Nat.not_le.mpr hle)
    | @step _ _ moved after rest moves hnext =>
      refine ⟨after, rest, (List.suffix_append moved rest).trans hsuffix, hnext, fun other hm => ?_⟩
      rcases moves.mem_of_mem hm with rfl | hm
      · exact Nat.lt_succ_self other
      · exact Nat.lt_succ_of_lt (hheld other hm)

end Runs

end Reckoner.Rpn
