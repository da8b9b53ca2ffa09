import Reckoner.Proofs.OperandGroup
import Reckoner.Proofs.Precedence

/-!
# The shape of the stack

What waits on the stack after the front of a row, whatever the row is. Only operators, names and
opening parentheses wait there, and of the parentheses those that are still open. A name has the
opening parenthesis of its argument on top of it, unless it has just been read in front of one.
Between two parentheses the operators bind the tighter the higher they lie, and equally tight only
where the upper one groups to the right: this is why they may come out from the top.
-/

namespace Reckoner.Rpn

/-- Whether a token is a closing parenthesis. -/
def isClosing (token : Token) : Bool :=
  token.kind == .closing

/-- Of two operators that lie on each other, the upper one binds tighter, or equally tight and
groups to the right. -/
def Rises (upper lower : Token) : Prop :=
  upper.kind = .operator → lower.kind = .operator →
    Operator.precedenceOf lower.text < Operator.precedenceOf upper.text ∨
      Operator.precedenceOf lower.text = Operator.precedenceOf upper.text ∧
        Operator.groupsLeft upper.text = false

/-- What may wait, the latest on top, after the front of a row and before the next token. -/
structure Layered (front : List Token) (next : Option Token) (waiting : List Token) : Prop where
  /-- Numbers and closing parentheses never wait. -/
  kinds : ∀ t ∈ waiting, t.kind = .operator ∨ t.kind = .identifier ∨ t.kind = .opening
  /-- The parentheses that wait are those that were opened and not closed. -/
  depth : (waiting.countP isOpening : Int) = front.countP isOpening - front.countP isClosing
  /-- The names below the top lie directly below an opening parenthesis. -/
  capped : waiting.IsChain Caps
  /-- A name on top has just been put there, and an opening parenthesis comes next. -/
  called : ∀ name ∈ waiting.head?, name.kind = .identifier →
    next.any isOpening = true ∧ ∃ earlier moved below, front = earlier ++ [name] ∧
      waiting = name :: below ∧ readFront [] none (some name) earlier = .ok (moved, below)
  /-- The operators that lie on each other rise. -/
  rising : waiting.IsChain Rises

section

variable {waiting moved after front : List Token} {previous next : Option Token} {token : Token}

/-- The last token of a front is read behind the others. -/
theorem readFront_concat_eq_ok_iff :
    readFront waiting previous next (front ++ [token]) = .ok (moved, after) ↔
      ∃ first between more,
        readFront waiting previous (some token) front = .ok (first, between) ∧
        step between (front.getLast?.or previous) token next = .ok (more, after) ∧
        first ++ more = moved := by
  induction front generalizing waiting previous moved with
  | nil =>
    rw [List.nil_append, readFront_cons_eq_ok_iff]
    constructor
    · rintro ⟨first, between, more, hstep, hmore, rfl⟩
      cases hmore
      exact ⟨[], waiting, first, rfl, hstep, (List.append_nil first).symm⟩
    · rintro ⟨first, between, more, hfirst, hstep, rfl⟩
      cases hfirst
      exact ⟨more, after, [], hstep, rfl, List.append_nil more⟩
  | cons head front ih =>
    have hnext : (front ++ [token]).head?.or next = front.head?.or (some token) := by
      cases front <;> rfl
    rw [List.cons_append, readFront_cons_eq_ok_iff, hnext, getLast?_cons_or]
    simp only [readFront_cons_eq_ok_iff, ih]
    constructor
    · rintro ⟨first, between, -, hhead, ⟨middle, last, more, hfront, hstep, rfl⟩, rfl⟩
      exact ⟨first ++ middle, last, more, ⟨first, between, middle, hhead, hfront, rfl⟩, hstep,
        List.append_assoc _ _ _⟩
    · rintro ⟨-, last, more, ⟨first, between, middle, hhead, hfront, rfl⟩, hstep, rfl⟩
      exact ⟨first, between, middle ++ more, hhead, ⟨middle, last, more, hfront, hstep, rfl⟩,
        (List.append_assoc _ _ _).symm⟩

/-- A step leaves a lower part of the stack, or puts one token on such a part: a name or an opening
parenthesis on all of it, or an operator in the place of what yields to it. -/
theorem Moves.suffix (h : Moves waiting previous token next moved after) :
    after <:+ waiting ∨
      after = token :: waiting ∧ (token.kind = .identifier ∨ token.kind = .opening) ∨
      ∃ kept, kept <:+ waiting ∧ after = readOperator previous token :: kept ∧
        token.kind = .operator ∧
        ∀ top ∈ kept.head?, yields (readOperator previous token).text top = false := by
  cases h with
  | pass kind => exact .inl (List.suffix_refl _)
  | wait kind => exact .inr (.inl ⟨rfl, kind.symm.imp_left And.left⟩)
  | @operator taken kept kind split yielding staying =>
    exact .inr (.inr ⟨kept, split ▸ List.suffix_append _ _, rfl, kind, staying⟩)
  | @group _ _ bracket kind split clear opened uncalled =>
    refine .inl ⟨moved ++ [bracket], ?_⟩
    rw [split, List.append_assoc, List.singleton_append]
  | @call inside below bracket caller kind split clear opened named =>
    refine .inl ⟨inside ++ [bracket, caller], ?_⟩
    rw [split, List.append_assoc, List.cons_append, List.singleton_append]

/-- After a step, numbers and closing parentheses do not wait either. -/
theorem Moves.kinds (h : Moves waiting previous token next moved after)
    (hkinds : ∀ t ∈ waiting, t.kind = .operator ∨ t.kind = .identifier ∨ t.kind = .opening) :
    ∀ t ∈ after, t.kind = .operator ∨ t.kind = .identifier ∨ t.kind = .opening := by
  obtain hlower | ⟨rfl, hk⟩ | ⟨kept, hkept, rfl, hk, -⟩ := h.suffix
  · exact fun t ht => hkinds t (hlower.mem ht)
  · exact List.forall_mem_cons.mpr ⟨.inr hk, hkinds⟩
  · exact List.forall_mem_cons.mpr
      ⟨.inl (readOperator_kind previous hk), fun t ht => hkinds t (hkept.mem ht)⟩

/-- An operator rises over one that does not yield to it. -/
theorem rises_of_yields_eq_false {upper lower : Token} (h : yields upper.text lower = false) :
    Rises upper lower := by
  intro _ hlower
  rw [yields, hlower, beq_self_eq_true, Bool.true_and, Bool.or_eq_false_iff,
    decide_eq_false_iff_not, Bool.and_eq_false_iff, beq_eq_false_iff_ne] at h
  obtain ⟨htighter, hequal⟩ := h
  rcases hequal with hdiffer | hright
  · exact .inl (by omega)
  · exact (Int.lt_or_eq_of_le (Int.not_lt.mp htighter)).imp_right fun he => ⟨he, hright⟩

/-- After a step, the operators rise as before. -/
theorem Moves.rising (h : Moves waiting previous token next moved after)
    (hrising : waiting.IsChain Rises) : after.IsChain Rises := by
  obtain hlower | ⟨rfl, hk⟩ | ⟨kept, hkept, rfl, -, hstay⟩ := h.suffix
  · exact hrising.suffix hlower
  · have hover : ∀ top ∈ waiting.head?, Rises token top := by
      intro top _ hoperator
      rcases hk with hk | hk <;> cases hk.symm.trans hoperator
    exact List.isChain_cons.mpr ⟨hover, hrising⟩
  · have hover : ∀ top ∈ kept.head?, Rises (readOperator previous token) top :=
      fun top htop => rises_of_yields_eq_false (hstay top htop)
    exact List.isChain_cons.mpr ⟨hover, hrising.suffix hkept⟩

/-- After a step, a name is on top only if the step has put it there. The other steps are the same
before any next token, so that they would leave the name seated before none. -/
theorem Moves.called (h : Moves waiting previous token next moved after)
    (hs : Seated waiting (some token)) :
    ∀ name ∈ after.head?, name.kind = .identifier → after = name :: waiting ∧ name = token := by
  intro name hname hkind
  have hseat : ∀ moved, Moves waiting previous token none moved after → False :=
    fun moved hmoves => Bool.false_ne_true ((hmoves.seated hs).top name hname hkind)
  cases h with
  | pass kind =>
    exact (hseat _ (.pass (kind.imp_right fun ⟨hk, _⟩ => ⟨hk, rfl⟩))).elim
  | wait kind =>
    cases hname
    exact ⟨rfl, rfl⟩
  | operator kind split yielding staying =>
    exact (hseat _ (.operator kind split yielding staying)).elim
  | group kind split clear opened uncalled =>
    exact (hseat _ (.group kind split clear opened uncalled)).elim
  | call kind split clear opened named =>
    exact (hseat _ (.call kind split clear opened named)).elim

/-- A step leaves as many parentheses open as there are opened and not closed. -/
theorem Moves.depth_concat (h : Moves waiting previous token next moved after)
    (hdepth : (waiting.countP isOpening : Int) =
      front.countP isOpening - front.countP isClosing) :
    (after.countP isOpening : Int) =
      (front ++ [token]).countP isOpening - (front ++ [token]).countP isClosing := by
  have hstep := h.depth
  rw [List.countP_append, List.countP_append, List.countP_singleton, List.countP_singleton]
  simp only [isOpening, isClosing, beq_iff_eq] at hstep hdepth ⊢
  omega

/-- A stack in shape has its names seated. -/
theorem Layered.seated (h : Layered front next waiting) : Seated waiting next :=
  ⟨fun name hname hkind => (h.called name hname hkind).1, h.capped⟩

/-- A step on the last token of a front keeps the stack in shape. -/
theorem Layered.step {first between more after : List Token}
    (hfront : readFront [] none (some token) front = .ok (first, between))
    (h : Layered front (some token) between)
    (hstep : step between front.getLast? token next = .ok (more, after)) :
    Layered (front ++ [token]) next after where
  kinds := (moves_of_step hstep).kinds h.kinds
  depth := (moves_of_step hstep).depth_concat h.depth
  capped := ((moves_of_step hstep).seated h.seated).chain
  called := by
    intro name hname hkind
    obtain ⟨hafter, rfl⟩ := (moves_of_step hstep).called h.seated name hname hkind
    exact ⟨((moves_of_step hstep).seated h.seated).top name hname hkind,
      front, first, between, rfl, hafter, hfront⟩
  rising := (moves_of_step hstep).rising h.rising

/-- Whatever front of a row has been read, the stack is in shape. -/
theorem layered_of_readFront (h : readFront [] none next front = .ok (moved, waiting)) :
    Layered front next waiting := by
  induction front using List.reverseRecOn generalizing next moved waiting with
  | nil =>
    cases h
    exact ⟨nofun, rfl, .nil, nofun, .nil⟩
  | append_singleton front token ih =>
    obtain ⟨first, between, more, hfront, hstep, -⟩ := readFront_concat_eq_ok_iff.mp h
    rw [Option.or_none] at hstep
    exact (ih hfront).step hfront hstep

end

/-- A row of tokens is read front to back. Either a step on its front fails, and so does the
arrangement of the row, or the stack behind the front is in shape, and the arrangement goes on from
there. Unknown symbols count among the operators as those that bind loosest and group to the
left. -/
theorem stack_layered (front back : List Token) :
    ((∃ failure, readFront [] none back.head? front = .error failure ∧
        arrange (front ++ back) = .error failure) ∨
      ∃ moved waiting, readFront [] none back.head? front = .ok (moved, waiting) ∧
        arrange (front ++ back) = (arrangeFrom waiting front.getLast? back).map (moved ++ ·) ∧
        Layered front back.head? waiting) ∧
    ∀ symbol ∉ Operator.table.map Operator.symbol,
      Operator.precedenceOf symbol = -1 ∧ Operator.groupsLeft symbol = true := by
  constructor
  · have hrow := arrangeFrom_append [] none front back
    cases hfront : readFront [] none back.head? front with
    | error failure =>
      rw [hfront] at hrow
      exact .inl ⟨failure, rfl, hrow⟩
    | ok result =>
      rw [hfront, Option.or_none] at hrow
      exact .inr ⟨result.1, result.2, rfl, hrow, layered_of_readFront hfront⟩
  · intro symbol hunknown
    rw [Operator.precedenceOf, Operator.groupsLeft, Operator.find?_eq_none_iff.mpr hunknown]
    exact ⟨rfl, rfl⟩

/-- In `2 ^ - f ( 3 = 4 * 5 ` the sign waits over the power, and what is in parentheses waits over
the name, with the unknown sign below the product. -/
example : readFront [] none none [.number "2", .operator "^", .operator "-", .identifier "f",
      .opening, .number "3", .operator "=", .number "4", .operator "*", .number "5"] =
    .ok ([.number "2", .number "3", .number "4", .number "5"],
      [.operator "*", .operator "=", .opening, .identifier "f", .operator "neg",
        .operator "^"]) := rfl

end Reckoner.Rpn
