import Reckoner.Proofs.Substitution

/-!
# Groups as operands

A row that can be arranged may stand in parentheses, and also behind a name, wherever a number may
stand, whatever the tokens around it are. Those in front are read the same way before either, and so
are those behind. Where the number comes out of the one row, the arrangement of the row in
parentheses comes out of the other, and then the name.
-/

namespace Reckoner.Rpn

open Token

/-- Reads tokens in front of others: what moves out, and what waits then. Of the others only the
first one matters. -/
def readFront (waiting : List Token) (previous next : Option Token) :
    List Token → Except Failure (List Token × List Token)
  | [] => .ok ([], waiting)
  | token :: tokens =>
    (step waiting previous token (tokens.head?.or next)).bind fun (moved, after) =>
      (readFront after (some token) next tokens).map fun (more, after) => (moved ++ more, after)

section

variable {waiting moved after front back tokens : List Token}
  {previous previous' next next' : Option Token} {token operand : Token}

/-- The front of a row is read one token after the other. -/
theorem readFront_cons_eq_ok_iff :
    readFront waiting previous next (token :: tokens) = .ok (moved, after) ↔
      ∃ first between more,
        step waiting previous token (tokens.head?.or next) = .ok (first, between) ∧
        readFront between (some token) next tokens = .ok (more, after) ∧ first ++ more = moved := by
  rw [readFront, Outcome.bind_eq_ok_iff]
  constructor
  · rintro ⟨⟨first, between⟩, hstep, hrest⟩
    obtain ⟨⟨more, last⟩, hmore, he⟩ := Outcome.map_eq_ok_iff.mp hrest
    cases he
    exact ⟨first, between, more, hstep, hmore, rfl⟩
  · rintro ⟨first, between, more, hstep, hmore, rfl⟩
    exact ⟨(first, between), hstep, Outcome.map_eq_ok_iff.mpr ⟨(more, after), hmore, rfl⟩⟩

/-- The last token of a row, or the one before the row if it is empty. -/
theorem getLast?_cons_or :
    (token :: front).getLast?.or previous = front.getLast?.or (some token) := by
  rw [List.getLast?_cons]
  cases front.getLast? <;> rfl

/-- What is read in front of other tokens comes out before them. -/
theorem arrangeFrom_append (waiting : List Token) (previous : Option Token)
    (front back : List Token) :
    arrangeFrom waiting previous (front ++ back) =
      (readFront waiting previous back.head? front).bind fun (moved, after) =>
        (arrangeFrom after (front.getLast?.or previous) back).map (moved ++ ·) := by
  induction front generalizing waiting previous with
  | nil =>
    change arrangeFrom waiting previous back = (arrangeFrom waiting previous back).map ([] ++ ·)
    cases arrangeFrom waiting previous back <;> rfl
  | cons token front ih =>
    rw [readFront, ← List.head?_append, getLast?_cons_or, List.cons_append]
    cases hstep : step waiting previous token (front ++ back).head? with
    | error failure =>
      rw [arrangeFrom, hstep]
      rfl
    | ok result =>
      obtain ⟨moved, after⟩ := result
      rw [arrangeFrom_cons hstep, ih]
      change ((readFront after (some token) back.head? front).bind _).map _ =
        ((readFront after (some token) back.head? front).map _).bind _
      cases readFront after (some token) back.head? front with
      | error failure => rfl
      | ok rest => exact map_append_map moved rest.1 _

/-- The front of a row that does not end in a name is read the same way before any tokens, and
otherwise before tokens that open a parenthesis alike. -/
theorem readFront_congr
    (h : ∀ last ∈ front.getLast?, last.kind = .identifier →
      next.any isOpening = next'.any isOpening) :
    readFront waiting previous next front = readFront waiting previous next' front := by
  induction front generalizing waiting previous with
  | nil => rfl
  | cons token front ih =>
    have hstep : step waiting previous token (front.head?.or next) =
        step waiting previous token (front.head?.or next') := by
      refine step_congr rfl fun hkind => ?_
      cases front with
      | nil => exact h token rfl hkind
      | cons => rfl
    have hrest : ∀ last ∈ front.getLast?, last.kind = .identifier →
        next.any isOpening = next'.any isOpening := by
      intro last hlast
      refine h last ?_
      rw [List.getLast?_cons, Option.mem_def.mp hlast]
      rfl
    rw [readFront, readFront, hstep]
    exact congrArg (Except.bind _) (funext fun ⟨_, _⟩ => congrArg (Except.map _) (ih hrest))

/-- Reading the front of a row leaves the names seated. -/
theorem readFront_seated (h : readFront waiting previous next front = .ok (moved, after))
    (hseat : Seated waiting (front.head?.or next)) : Seated after next := by
  induction front generalizing waiting previous moved with
  | nil =>
    cases h
    exact hseat
  | cons token front ih =>
    obtain ⟨first, between, more, hstep, hmore, -⟩ := readFront_cons_eq_ok_iff.mp h
    exact ih hmore ((moves_of_step hstep).seated hseat)

/-- A number or a name that is neither in the front of a row nor waits does not come out. -/
theorem readFront_notMem (h : readFront waiting previous next front = .ok (moved, after))
    (hkind : operand.kind = .number ∨ operand.kind = .identifier) (hw : operand ∉ waiting)
    (hfront : operand ∉ front) : operand ∉ moved ∧ operand ∉ after := by
  induction front generalizing waiting previous moved with
  | nil =>
    cases h
    exact ⟨List.not_mem_nil, hw⟩
  | cons token front ih =>
    obtain ⟨first, between, more, hstep, hmore, rfl⟩ := readFront_cons_eq_ok_iff.mp h
    rw [List.mem_cons, not_or] at hfront
    obtain ⟨hfirst, hbetween⟩ :=
      (moves_of_step hstep).notMem hkind hw (Ne.symm hfront.1)
    obtain ⟨hmore, hafter⟩ := ih hmore hbetween hfront.2
    exact ⟨fun hm => (List.mem_append.mp hm).elim hfirst hmore, hafter⟩

/-- A number or a name that is not among the tokens and does not wait does not come out. -/
theorem arrangeFrom_notMem {output : List Token}
    (h : arrangeFrom waiting previous tokens = .ok output)
    (hkind : operand.kind = .number ∨ operand.kind = .identifier) (hw : operand ∉ waiting)
    (htokens : operand ∉ tokens) : operand ∉ output := by
  rw [(arrangeFrom_perm h).mem_iff, List.mem_append, not_or]
  exact ⟨fun hm => hw (List.mem_of_mem_filter hm), fun hm => htokens (mem_of_mem_readings hkind hm)⟩

/-- Behind an operand all tokens are read as behind any other. -/
theorem arrangeFrom_behind (hp : isFrontPosition previous = isFrontPosition previous') :
    arrangeFrom waiting previous tokens = arrangeFrom waiting previous' tokens := by
  cases tokens with
  | nil => rfl
  | cons token tokens => rw [arrangeFrom, arrangeFrom, step_congr hp fun _ => rfl]

/-- Tokens that come out as an operand does come out in its place. -/
theorem arrange_replace {text : String} {output : List Token} (hfront : .number text ∉ front)
    (hback : .number text ∉ back) {first : Token}
    (hnext : ∀ last ∈ front.getLast?, last.kind = .identifier → isOpening first = false)
    (hread : ∀ waiting, (∀ top ∈ waiting.head?, top.kind ≠ .identifier) → ∀ previous,
      arrangeFrom waiting previous (first :: tokens) =
        (arrangeFrom waiting (some .closing) back).map (output ++ ·)) :
    arrange (front ++ first :: tokens) =
      (arrange (front ++ .number text :: back)).map (replace (.number text) output) := by
  have hsame : readFront [] none (some first) front =
      readFront [] none (some (.number text)) front := readFront_congr hnext
  rw [arrange, arrange, arrangeFrom_append, arrangeFrom_append, List.head?_cons, List.head?_cons,
    hsame]
  cases hmoved : readFront [] none (some (.number text)) front with
  | error failure => rfl
  | ok result =>
    obtain ⟨moved, after⟩ := result
    have hseat := readFront_seated hmoved (seated_nil _)
    obtain ⟨hfree, hwait⟩ := readFront_notMem hmoved (.inl rfl) List.not_mem_nil hfront
    have hnumber : arrangeFrom after (front.getLast?.or none) (.number text :: back) =
        (arrangeFrom after (some (.number text)) back).map ([.number text] ++ ·) :=
      arrangeFrom_cons rfl
    have hbehind : arrangeFrom after (some (.number text)) back =
        arrangeFrom after (some .closing) back := arrangeFrom_behind rfl
    change (arrangeFrom after _ (first :: tokens)).map (moved ++ ·) =
      ((arrangeFrom after _ (.number text :: back)).map (moved ++ ·)).map _
    rw [hread after (hseat.uncalled rfl), hnumber, hbehind, map_append_map, map_append_map]
    cases hrest : arrangeFrom after (some .closing) back with
    | error failure => rfl
    | ok rest =>
      have hfree' := arrangeFrom_notMem hrest (.inl rfl) hwait hback
      change Except.ok (moved ++ output ++ rest) =
        Except.ok (replace (.number text) output (moved ++ [.number text] ++ rest))
      rw [List.append_assoc moved [_], List.singleton_append, replace_append, replace_self,
        replace_of_notMem hfree, replace_of_notMem hfree', List.append_assoc]

end

/-- Let a row be one that can be arranged. Tokens that hold it in parentheses, not behind a name,
are arranged as the tokens that hold a number there, or fail alike, and its arrangement comes out
where the number does; behind a name they are so, too, and the name comes out behind it. -/
theorem group_stands_for_operand {row output : List Token} (hrow : arrange row = .ok output)
    {text : String} {front back : List Token} (hfront : .number text ∉ front)
    (hback : .number text ∉ back) :
    ((∀ last ∈ front.getLast?, last.kind ≠ .identifier) →
      arrange (front ++ (enclose row ++ back)) =
        (arrange (front ++ .number text :: back)).map (replace (.number text) output)) ∧
    ∀ name, arrange (front ++ .identifier name :: (enclose row ++ back)) =
      (arrange (front ++ .number text :: back)).map
        (replace (.number text) (output ++ [.identifier name])) := by
  have hrowed : enclose row ++ back = .opening :: (row ++ .closing :: back) := by
    rw [enclose, List.cons_append, List.append_assoc, List.singleton_append]
  rw [hrowed]
  constructor
  · intro hname
    refine arrange_replace hfront hback ?_ fun waiting hw previous =>
      arrangeFrom_group hrow hw back
    exact fun last hlast hkind => absurd hkind (hname last hlast)
  · intro name
    exact arrange_replace hfront hback (fun _ _ _ => rfl) fun waiting _ previous =>
      arrangeFrom_call hrow name back

/-- A sum in parentheses is read behind a sign as a number is, and so is a function of it. -/
theorem group_stands_for_signed :
    arrange [.operator "-", .opening, .number "1", .operator "+", .number "2", .closing,
        .operator "^", .number "3"] =
      .ok [.number "1", .number "2", .operator "+", .operator "neg", .number "3", .operator "^"] ∧
    arrange [.operator "-", .identifier "f", .opening, .number "1", .operator "+", .number "2",
        .closing, .operator "^", .number "3"] =
      .ok [.number "1", .number "2", .operator "+", .identifier "f", .operator "neg", .number "3",
        .operator "^"] := by
  have hrow : arrange [.number "1", .operator "+", .number "2"] =
      .ok [.number "1", .number "2", .operator "+"] := rfl
  have hnumber : arrange ([.operator "-"] ++ .number "0" :: [.operator "^", .number "3"]) =
      .ok [.number "0", .operator "neg", .number "3", .operator "^"] := rfl
  obtain ⟨hgroup, hcall⟩ := @group_stands_for_operand _ _ hrow "0" [.operator "-"]
    [.operator "^", .number "3"] (by decide) (by decide)
  rw [hnumber] at hgroup hcall
  exact ⟨hgroup (by decide), hcall "f"⟩

end Reckoner.Rpn
