import Mathlib.Data.List.Chain
import Reckoner.Proofs.Conservation

/-!
# The names that wait

A name waits for its argument only. The opening parenthesis of the argument stands directly above
it on the stack, or it is the token that comes next. So in front of any other token no name is on
top of the stack, and a group that begins there is not taken for an argument.
-/

namespace Reckoner.Rpn

/-- A name may lie directly below an opening parenthesis only. -/
def Caps (upper lower : Token) : Prop :=
  lower.kind = .identifier → isOpening upper = true

/-- Every name on the stack has an opening parenthesis directly above it, or comes right before
one. -/
structure Seated (waiting : List Token) (next : Option Token) : Prop where
  /-- A name on top comes right before an opening parenthesis. -/
  top : ∀ t ∈ waiting.head?, t.kind = .identifier → next.any isOpening = true
  /-- The other names lie below one. -/
  chain : waiting.IsChain Caps

/-- No name waits at the start. -/
theorem seated_nil (next : Option Token) : Seated [] next :=
  ⟨nofun, .nil⟩

section

variable {waiting moved after : List Token} {previous next : Option Token} {token : Token}

/-- In front of a token that is no opening parenthesis, no name is on top. -/
theorem Seated.uncalled (h : Seated waiting (some token)) (ht : isOpening token = false) :
    ∀ top ∈ waiting.head?, top.kind ≠ .identifier := by
  intro top htop hname
  have hopening : isOpening token = true := h.top top htop hname
  rw [ht] at hopening
  cases hopening

/-- A stack without a name on top has its names seated whatever comes next. -/
theorem seated_of_uncalled (htop : ∀ top ∈ waiting.head?, top.kind ≠ .identifier)
    (hchain : waiting.IsChain Caps) (next : Option Token) : Seated waiting next :=
  ⟨fun top ht hname => absurd hname (htop top ht), hchain⟩

/-- Below tokens that yield to an operator no name is on top. -/
theorem Seated.below_yielding {taken kept : List Token} {symbol : String}
    (h : Seated (taken ++ kept) (some token)) (ht : isOpening token = false)
    (hyield : ∀ t ∈ taken, yields symbol t = true) :
    ∀ top ∈ kept.head?, top.kind ≠ .identifier := by
  intro top htop hname
  obtain ⟨-, -, hjoin⟩ := List.isChain_append.mp h.chain
  cases hlast : taken.getLast? with
  | none =>
    rw [List.getLast?_eq_none_iff] at hlast
    subst hlast
    exact h.uncalled ht top htop hname
  | some last =>
    have hopening : isOpening last = true := hjoin last hlast top htop hname
    have hclear := isOpening_of_yields (hyield last (List.mem_of_getLast? hlast))
    rw [hclear] at hopening
    cases hopening

/-- A step leaves every name seated. -/
theorem Moves.seated (h : Moves waiting previous token next moved after)
    (hs : Seated waiting (some token)) : Seated after next := by
  cases h with
  | pass kind =>
    have ht : isOpening token = false := by
      rcases kind with hk | ⟨hk, -⟩ <;> exact isOpening_of_kind hk
    exact seated_of_uncalled (hs.uncalled ht) hs.chain next
  | wait kind =>
    constructor
    · intro top htop hname
      cases htop
      rcases kind with hk | ⟨-, hn⟩
      · rw [hk] at hname
        cases hname
      · exact hn
    · exact List.isChain_cons.mpr ⟨hs.top, hs.chain⟩
  | @operator taken kept kind split yielding staying =>
    subst split
    have hbelow := hs.below_yielding (isOpening_of_kind kind) yielding
    have hchain := (List.isChain_append.mp hs.chain).2.1
    constructor
    · intro top htop hname
      cases htop
      rw [readOperator_kind previous kind] at hname
      cases hname
    · exact List.isChain_cons.mpr ⟨fun top ht hname => absurd hname (hbelow top ht), hchain⟩
  | @group inside below bracket kind split clear opened uncalled =>
    subst split
    have hchain := (List.isChain_append.mp hs.chain).2.1
    exact seated_of_uncalled uncalled (List.isChain_cons.mp hchain).2 next
  | @call inside below bracket caller kind split clear opened named =>
    subst split
    have hchain := (List.isChain_append.mp hs.chain).2.1
    obtain ⟨hcaller, hbelow⟩ := List.isChain_cons.mp (List.isChain_cons.mp hchain).2
    refine seated_of_uncalled ?_ hbelow next
    intro top htop hname
    have hopening : isOpening caller = true := hcaller top htop hname
    rw [isOpening_of_kind named] at hopening
    cases hopening

/-- What a step moves out or leaves waiting, parentheses apart, waited before or comes out for the
token. -/
theorem Moves.mem_of_mem {t : Token} (h : Moves waiting previous token next moved after)
    (ht : isOpening t = false) (hm : t ∈ moved ++ after) :
    t ∈ waiting ∨ t ∈ reading previous token := by
  have hkeep : t ∈ moved ++ after.filter (!isOpening ·) := by
    rcases List.mem_append.mp hm with hm | hm
    · exact List.mem_append_left _ hm
    · exact List.mem_append_right _ (List.mem_filter.mpr ⟨hm, by simp [ht]⟩)
  rcases List.mem_append.mp (h.perm.mem_iff.mp hkeep) with hw | hr
  · exact .inl (List.mem_of_mem_filter hw)
  · exact .inr hr

end

end Reckoner.Rpn
