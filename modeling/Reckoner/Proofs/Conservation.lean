import Reckoner.Proofs.Reading

/-!
# What moves out and what waits

One step of the arrangement moves some tokens out and leaves others waiting. Nothing is lost on the
way: the output is made up of the tokens as their places read them, without the parentheses. And
the opening parentheses that wait are those that are still open, so that tokens that can be arranged
have balanced parentheses.
-/

namespace Reckoner.Rpn

/-- What a token moves out from a stack, and what waits behind it. -/
inductive Moves (waiting : List Token) (previous : Option Token) (token : Token)
    (next : Option Token) : List Token → List Token → Prop where
  /-- An operand moves out. -/
  | pass (kind : token.kind = .number ∨ token.kind = .identifier ∧ next.any isOpening = false) :
      Moves waiting previous token next [token] waiting
  /-- An opening parenthesis and the name before it wait. -/
  | wait (kind : token.kind = .opening ∨ token.kind = .identifier ∧ next.any isOpening = true) :
      Moves waiting previous token next [] (token :: waiting)
  /-- An operator waits in the place of those that yield to it. -/
  | operator {taken kept : List Token} (kind : token.kind = .operator)
      (split : waiting = taken ++ kept)
      (yielding : ∀ t ∈ taken, yields (readOperator previous token).text t = true)
      (staying : ∀ top ∈ kept.head?, yields (readOperator previous token).text top = false) :
      Moves waiting previous token next taken (readOperator previous token :: kept)
  /-- A closing parenthesis moves out what waits above its opening one. -/
  | group {inside below : List Token} {bracket : Token} (kind : token.kind = .closing)
      (split : waiting = inside ++ bracket :: below) (clear : ∀ t ∈ inside, isOpening t = false)
      (opened : isOpening bracket = true) (uncalled : ∀ top ∈ below.head?, top.kind ≠ .identifier) :
      Moves waiting previous token next inside below
  /-- So it does behind the argument of a function, and then moves out the name. -/
  | call {inside below : List Token} {bracket caller : Token} (kind : token.kind = .closing)
      (split : waiting = inside ++ bracket :: caller :: below)
      (clear : ∀ t ∈ inside, isOpening t = false) (opened : isOpening bracket = true)
      (named : caller.kind = .identifier) :
      Moves waiting previous token next (inside ++ [caller]) below

/-- The tokens before the first one that fails a test, and those from it on. -/
theorem exists_split (p : Token → Bool) (tokens : List Token) :
    tokens = tokens.takeWhile p ++ tokens.dropWhile p ∧ (∀ t ∈ tokens.takeWhile p, p t = true) ∧
      ∀ top ∈ (tokens.dropWhile p).head?, p top = false := by
  refine ⟨List.takeWhile_append_dropWhile.symm, List.all_eq_true.mp List.all_takeWhile, ?_⟩
  intro top ht
  have h := List.head?_dropWhile_not p tokens
  rw [ht] at h
  simpa using h

/-- A closing parenthesis closes a group or a call. -/
theorem moves_of_closeGroup {waiting moved after : List Token} {token : Token}
    (kind : token.kind = .closing) (h : closeGroup waiting = .ok (moved, after))
    (previous next : Option Token) : Moves waiting previous token next moved after := by
  obtain ⟨split, clear, opened⟩ := exists_split (!isOpening ·) waiting
  unfold closeGroup at h
  cases hrest : waiting.dropWhile (!isOpening ·) with
  | nil => rw [hrest] at h; cases h
  | cons bracket below =>
    rw [hrest] at h split opened
    have hclear : ∀ t ∈ waiting.takeWhile (!isOpening ·), isOpening t = false := by
      intro t ht
      simpa using clear t ht
    have hopened : isOpening bracket = true := by simpa using opened bracket rfl
    cases below with
    | nil =>
      cases h
      exact .group kind split hclear hopened nofun
    | cons caller below =>
      by_cases hname : caller.kind = .identifier
      · simp only [hname, beq_self_eq_true, if_true] at h
        cases h
        exact .call kind split hclear hopened hname
      · simp only [beq_iff_eq, hname, if_false] at h
        cases h
        refine .group kind split hclear hopened ?_
        intro top ht
        cases ht
        exact hname

/-- A step moves tokens in one of these ways. -/
theorem moves_of_step {waiting moved after : List Token} {previous next : Option Token}
    {token : Token} (h : step waiting previous token next = .ok (moved, after)) :
    Moves waiting previous token next moved after := by
  unfold step at h
  split at h
  next hk =>
    cases h
    exact .pass (.inl hk)
  next hk =>
    split at h
    next hn =>
      cases h
      exact .wait (.inr ⟨hk, hn⟩)
    next hn =>
      cases h
      exact .pass (.inr ⟨hk, Bool.eq_false_iff.mpr hn⟩)
  next hk =>
    cases h
    obtain ⟨split, yielding, staying⟩ :=
      exists_split (yields (readOperator previous token).text) waiting
    exact .operator hk split yielding staying
  next hk =>
    cases h
    exact .wait (.inl hk)
  next hk => exact moves_of_closeGroup hk h previous next

/-- What comes out for a token: an operator as its place reads it, and nothing for a parenthesis. -/
def reading (previous : Option Token) (token : Token) : List Token :=
  match token.kind with
  | .number => [token]
  | .identifier => [token]
  | .operator => [readOperator previous token]
  | .opening => []
  | .closing => []

/-- What comes out for a row of tokens, in the order in which they are read. -/
def readings : Option Token → List Token → List Token
  | _, [] => []
  | previous, token :: tokens => reading previous token ++ readings (some token) tokens

/-- What comes out for a token is of its kind, and no parenthesis. -/
theorem kind_of_mem_reading {previous : Option Token} {token t : Token}
    (h : t ∈ reading previous token) :
    t.kind = token.kind ∧ t.kind ≠ .opening ∧ t.kind ≠ .closing := by
  unfold reading at h
  split at h
  next hk => simp [List.mem_singleton.mp h, hk]
  next hk => simp [List.mem_singleton.mp h, hk]
  next hk => simp [List.mem_singleton.mp h, readOperator_kind previous hk, hk]
  next => cases h
  next => cases h

/-- What comes out for a row comes out for one of its tokens. -/
theorem exists_mem_of_mem_readings {previous : Option Token} {tokens : List Token} {t : Token}
    (h : t ∈ readings previous tokens) :
    ∃ token ∈ tokens, ∃ before, t ∈ reading before token := by
  induction tokens generalizing previous with
  | nil => cases h
  | cons token tokens ih =>
    rcases List.mem_append.mp h with hfirst | hrest
    · exact ⟨token, List.mem_cons_self, previous, hfirst⟩
    · obtain ⟨later, hm, before, hlater⟩ := ih hrest
      exact ⟨later, List.mem_cons_of_mem _ hm, before, hlater⟩

/-- What yields to a symbol is no opening parenthesis. -/
theorem isOpening_of_yields {symbol : String} {token : Token} (h : yields symbol token = true) :
    isOpening token = false := by
  unfold yields at h
  rw [Bool.and_eq_true, beq_iff_eq] at h
  exact isOpening_of_kind h.1

/-- A row in which nothing opens stays whole when what opens is left out. -/
theorem filter_clear {α : Type} {opens : α → Bool} {row : List α}
    (h : ∀ t ∈ row, opens t = false) : row.filter (!opens ·) = row := by
  rw [List.filter_eq_self]
  intro t ht
  rw [h t ht]
  rfl

/-- A step loses nothing but parentheses: what moves out and what waits then is what waited before
and what comes out for the token. -/
theorem Moves.perm {waiting moved after : List Token} {previous next : Option Token} {token : Token}
    (h : Moves waiting previous token next moved after) :
    (moved ++ after.filter (!isOpening ·)).Perm
      (waiting.filter (!isOpening ·) ++ reading previous token) := by
  cases h with
  | pass kind =>
    have hr : reading previous token = [token] := by
      rcases kind with hk | ⟨hk, -⟩ <;> rw [reading, hk]
    rw [hr]
    exact List.perm_append_comm
  | wait kind =>
    rcases kind with hk | ⟨hk, -⟩
    · have ho : isOpening token = true := isOpening_of_kind hk
      rw [reading, hk, List.append_nil, List.nil_append, List.filter_cons_of_neg (by simp [ho])]
    · have ho : isOpening token = false := isOpening_of_kind hk
      rw [reading, hk, List.nil_append, List.filter_cons_of_pos (by simp [ho])]
      exact (List.perm_append_singleton _ _).symm
  | @operator taken kept kind split yielding staying =>
    have ho := isOpening_readOperator previous kind
    have htaken := filter_clear fun t ht => isOpening_of_yields (yielding t ht)
    rw [split, reading, kind, List.filter_append, htaken, List.filter_cons_of_pos (by simp [ho]),
      List.append_assoc]
    exact (List.perm_append_singleton _ _).symm.append_left _
  | @group inside below bracket kind split clear opened uncalled =>
    rw [split, reading, kind, List.append_nil, List.filter_append, filter_clear clear,
      List.filter_cons_of_neg (by simp [opened])]
  | @call inside below bracket caller kind split clear opened named =>
    have hc : isOpening caller = false := isOpening_of_kind named
    rw [split, reading, kind, List.append_nil, List.filter_append, filter_clear clear,
      List.filter_cons_of_neg (by simp [opened]), List.filter_cons_of_pos (by simp [hc]),
      List.append_assoc, List.singleton_append]

/-- The output is made up of what waited and of what comes out for the tokens. -/
theorem arrangeFrom_perm {waiting tokens output : List Token} {previous : Option Token}
    (h : arrangeFrom waiting previous tokens = .ok output) :
    output.Perm (waiting.filter (!isOpening ·) ++ readings previous tokens) := by
  induction tokens generalizing waiting previous output with
  | nil =>
    rw [arrangeFrom, drain] at h
    split at h
    next => cases h
    next hopen =>
      cases h
      simp only [List.any_eq_true, not_exists, not_and, Bool.not_eq_true] at hopen
      rw [filter_clear hopen, readings, List.append_nil]
  | cons token tokens ih =>
    obtain ⟨moved, after, rest, hs, hr, rfl⟩ := arrangeFrom_cons_eq_ok_iff.mp h
    have hstep := (moves_of_step hs).perm
    have hrest := (ih hr).append_left moved
    rw [← List.append_assoc] at hrest
    rw [readings, ← List.append_assoc]
    exact hrest.trans (hstep.append_right _)

/-- The arrangement of a row of tokens is made up of what comes out for them. -/
theorem arrange_perm {tokens output : List Token} (h : arrange tokens = .ok output) :
    output.Perm (readings none tokens) :=
  arrangeFrom_perm h

/-- The parentheses of a row close what stands open in front of it and what they open themselves,
and nothing else. -/
def Closes : Nat → List Token → Prop
  | depth, [] => depth = 0
  | depth, token :: tokens =>
    match token.kind with
    | .opening => Closes (depth + 1) tokens
    | .closing => ∃ outer, depth = outer + 1 ∧ Closes outer tokens
    | _ => Closes depth tokens

/-- In a row in which nothing opens nothing is counted that does. -/
theorem countP_clear {α : Type} {opens : α → Bool} {row : List α}
    (h : ∀ t ∈ row, opens t = false) : row.countP opens = 0 := by
  rw [List.countP_eq_zero]
  intro t ht
  rw [h t ht]
  exact Bool.false_ne_true

/-- A step leaves as many parentheses open as its token does: an opening one adds one, a closing one
takes one away. -/
theorem Moves.depth {waiting moved after : List Token} {previous next : Option Token}
    {token : Token} (h : Moves waiting previous token next moved after) :
    after.countP isOpening + (if token.kind = .closing then 1 else 0) =
      waiting.countP isOpening + (if token.kind = .opening then 1 else 0) := by
  cases h with
  | pass kind => rcases kind with hk | ⟨hk, -⟩ <;> simp [hk]
  | wait kind => rcases kind with hk | ⟨hk, -⟩ <;> simp [hk, isOpening]
  | @operator taken kept kind split yielding staying =>
    have ho := isOpening_readOperator previous kind
    have htaken := countP_clear fun t ht => isOpening_of_yields (yielding t ht)
    rw [List.countP_cons_of_neg (by simp [ho]), split, List.countP_append, htaken, Nat.zero_add]
    simp [kind]
  | @group inside below bracket kind split clear opened uncalled =>
    rw [split, List.countP_append, countP_clear clear, List.countP_cons_of_pos opened]
    simp [kind]
  | @call inside below bracket caller kind split clear opened named =>
    have hc : isOpening caller = false := isOpening_of_kind named
    rw [split, List.countP_append, countP_clear clear, List.countP_cons_of_pos opened,
      List.countP_cons_of_neg (by simp [hc])]
    simp [kind]

/-- What closes the parentheses that a step leaves open closes, behind the token of the step, those
that were open before. -/
theorem Moves.closes {waiting moved after tokens : List Token} {previous next : Option Token}
    {token : Token} (h : Moves waiting previous token next moved after)
    (hb : Closes (after.countP isOpening) tokens) :
    Closes (waiting.countP isOpening) (token :: tokens) := by
  have hdepth := h.depth
  unfold Closes
  cases hk : token.kind with
  | opening =>
    have hmore : after.countP isOpening = waiting.countP isOpening + 1 := by
      simpa [hk] using hdepth
    rw [hmore] at hb
    exact hb
  | closing => exact ⟨_, by simpa [hk] using hdepth.symm, hb⟩
  | _ =>
    have hsame : after.countP isOpening = waiting.countP isOpening := by simpa [hk] using hdepth
    rw [hsame] at hb
    exact hb

/-- Tokens that can be arranged over a stack close the parentheses that wait on it. -/
theorem closes_of_arrangeFrom {waiting tokens output : List Token} {previous : Option Token}
    (h : arrangeFrom waiting previous tokens = .ok output) :
    Closes (waiting.countP isOpening) tokens := by
  induction tokens generalizing waiting previous output with
  | nil =>
    rw [arrangeFrom, drain] at h
    split at h
    next => cases h
    next hopen =>
      simp only [List.any_eq_true, not_exists, not_and, Bool.not_eq_true] at hopen
      exact countP_clear hopen
  | cons token tokens ih =>
    obtain ⟨moved, after, rest, hs, hr, -⟩ := arrangeFrom_cons_eq_ok_iff.mp h
    exact (moves_of_step hs).closes (ih hr)

end Reckoner.Rpn
