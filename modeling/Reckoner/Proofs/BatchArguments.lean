import Mathlib.Data.List.TakeWhile
import Reckoner.CommandLine.Arguments
import Reckoner.Proofs.Outcome

/-!
# The arguments of a batch

The program carries out a batch exactly if its first argument is the name of the batch and no
argument in front of the separator is read as an option. The expressions are then the other
arguments, in their order and without the separator. So any texts at all may be given behind one.
-/

namespace Reckoner.CommandLine

/-- A tail of the short help option is no separator. -/
theorem shortTail_ne_separator (cs : List Char) : shortTail cs ≠ .separator := by
  fun_induction shortTail cs with
  | case1 => simp
  | case2 rest ih => exact ih
  | case3 => simp

/-- An argument that is read for the long help option is no separator. -/
theorem longRole_ne_separator (cs : List Char) : longRole cs ≠ .separator := by
  rw [longRole]
  split
  · split <;> simp
  · split <;> simp

/-- The separator is two hyphens, and nothing else is one. -/
theorem roleOf_eq_separator_iff {argument : String} :
    roleOf argument = .separator ↔ argument = "--" := by
  constructor
  · intro h
    rw [roleOf] at h
    split at h
    next hyphens => exact String.toList_inj.mp hyphens
    next => exact absurd h (longRole_ne_separator _)
    next => cases h
    next => exact absurd h (shortTail_ne_separator _)
    next => exact absurd h (shortTail_ne_separator _)
    next => split at h <;> cases h
    next => cases h
  · rintro rfl
    rfl

/-- The operands are the plain arguments and the separator. -/
theorem isOperand_iff {argument : Role × String} :
    isOperand argument = true ↔ argument.1 = .plain ∨ argument.1 = .separator := by
  rw [isOperand, Bool.or_eq_true, beq_iff_eq, beq_iff_eq]

/-- Behind the separator all arguments are plain. -/
theorem withRoles_separator (rest : List String) :
    withRoles ("--" :: rest) = (.separator, "--") :: rest.map (Role.plain, ·) := by
  rw [withRoles, if_pos (roleOf_eq_separator_iff.mpr rfl)]

/-- Any other argument has the role of its text. -/
theorem withRoles_cons {argument : String} (h : argument ≠ "--") (rest : List String) :
    withRoles (argument :: rest) = (roleOf argument, argument) :: withRoles rest := by
  rw [withRoles, if_neg (roleOf_eq_separator_iff.not.mpr h)]

/-- All arguments are operands exactly if those in front of the separator are plain. -/
theorem forall_isOperand_iff {arguments : List String} :
    (∀ argument ∈ withRoles arguments, isOperand argument = true) ↔
      ∀ argument ∈ arguments.takeWhile (· != "--"), roleOf argument = .plain := by
  induction arguments with
  | nil => exact iff_of_true (fun _ h => nomatch h) (fun _ h => nomatch h)
  | cons argument rest ih =>
    by_cases hseparator : argument = "--"
    · subst hseparator
      rw [withRoles_separator, List.takeWhile_cons_of_neg (by decide)]
      simp [isOperand]
    · have hrole : isOperand (roleOf argument, argument) = true ↔ roleOf argument = .plain :=
        isOperand_iff.trans (or_iff_left (roleOf_eq_separator_iff.not.mpr hseparator))
      rw [withRoles_cons hseparator, List.takeWhile_cons_of_pos (by simpa using hseparator),
        List.forall_mem_cons, List.forall_mem_cons, hrole, ih]

/-- Where all arguments are operands, all but the separator are plain. -/
theorem plain_texts {arguments : List String}
    (h : ∀ argument ∈ withRoles arguments, isOperand argument = true) :
    ((withRoles arguments).filter (·.1 == .plain)).map Prod.snd = arguments.erase "--" := by
  induction arguments with
  | nil => rfl
  | cons argument rest ih =>
    by_cases hseparator : argument = "--"
    · subst hseparator
      rw [withRoles_separator, List.erase_cons_head]
      simp [List.filter_map, Function.comp_def]
    · rw [withRoles_cons hseparator, List.forall_mem_cons] at h
      have hplain : roleOf argument = .plain :=
        (isOperand_iff.mp h.1).resolve_right (roleOf_eq_separator_iff.not.mpr hseparator)
      rw [withRoles_cons hseparator, List.erase_cons_tail (by simpa using hseparator), ← ih h.2,
        hplain]
      rfl

/-- Nothing is left over once a command is served only if nothing stands behind. -/
theorem leave_eq_ok_nil_iff {name : String} {arguments : List (Role × String)} :
    share.leave name arguments = .ok [] ↔ arguments = [] := by
  constructor
  · intro h
    rw [share.leave.eq_def] at h
    split at h
    next => rfl
    next => cases h
    next => cases h
    next =>
      obtain ⟨surplus, -, hcons⟩ := Outcome.map_eq_ok_iff.mp h
      cases hcons
  · rintro rfl
    rfl

section

variable {name : String} {arguments : List (Role × String)} {taken : List String}

/-- A command that takes all in a row leaves nothing over exactly if none is an option. -/
theorem serve_many_eq_ok_iff :
    share.serve name .many arguments = .ok ⟨taken, []⟩ ↔
      (∀ argument ∈ arguments, isOperand argument = true) ∧
        (arguments.filter (·.1 == .plain)).map Prod.snd = taken := by
  rw [share.serve, Appetite.take]
  constructor
  · intro h
    obtain ⟨surplus, hleave, hshares⟩ := Outcome.map_eq_ok_iff.mp h
    obtain ⟨htexts, rfl⟩ := Shares.mk.inj hshares
    have hoperands := List.dropWhile_eq_nil_iff.mp (leave_eq_ok_nil_iff.mp hleave)
    rw [List.takeWhile_eq_self_iff.mpr hoperands] at htexts
    exact ⟨hoperands, htexts⟩
  · rintro ⟨hoperands, rfl⟩
    rw [List.dropWhile_eq_nil_iff.mpr hoperands, List.takeWhile_eq_self_iff.mpr hoperands]
    rfl

/-- It is served at the first argument that is not an option, so the same holds of all of them. -/
theorem share_many_eq_ok_iff :
    share name .many arguments = .ok ⟨taken, []⟩ ↔
      (∀ argument ∈ arguments, isOperand argument = true) ∧
        (arguments.filter (·.1 == .plain)).map Prod.snd = taken := by
  cases arguments with
  | nil =>
    change share.serve name .many [] = _ ↔ _
    exact serve_many_eq_ok_iff
  | cons argument rest =>
    obtain ⟨role, text⟩ := argument
    have hoption (h : isOperand (role, text) = false) :
        ¬ ∀ argument ∈ (role, text) :: rest, isOperand argument = true :=
      fun hall => Bool.false_ne_true (h.symm.trans (hall _ List.mem_cons_self))
    cases role with
    | plain => exact serve_many_eq_ok_iff
    | separator => exact serve_many_eq_ok_iff
    | help => exact iff_of_false (fun h => nomatch h) fun h => hoption rfl h.1
    | helpWith value => exact iff_of_false (fun h => nomatch h) fun h => hoption rfl h.1
    | unknownOption =>
      refine iff_of_false (fun h => ?_) fun h => hoption rfl h.1
      obtain ⟨shares, -, hshares⟩ := Outcome.map_eq_ok_iff.mp h
      cases hshares

end

/-- A command is a batch that leaves nothing over exactly if that is its name and none of its
arguments in front of a separator is an option. -/
theorem commandOf_eq_ok_eval_iff {name : String} {arguments expressions : List String} :
    commandOf name arguments = .ok (.eval expressions, []) ↔
      name = "eval" ∧ (∀ argument ∈ arguments.takeWhile (· != "--"), roleOf argument = .plain) ∧
        arguments.erase "--" = expressions := by
  constructor
  · intro h
    rw [commandOf] at h
    split at h
    next =>
      obtain ⟨shares, -, hcommand⟩ := Outcome.map_eq_ok_iff.mp h
      cases hcommand
    next =>
      split at h
      next hname =>
        obtain ⟨⟨taken, surplus⟩, hshares, hcommand⟩ := Outcome.map_eq_ok_iff.mp h
        cases hcommand
        obtain ⟨hoperands, htexts⟩ := share_many_eq_ok_iff.mp hshares
        rw [plain_texts hoperands] at htexts
        exact ⟨beq_iff_eq.mp hname, forall_isOperand_iff.mp hoperands, htexts⟩
      next =>
        split at h
        next =>
          obtain ⟨shares, -, hcommand⟩ := Outcome.map_eq_ok_iff.mp h
          cases hcommand
        next => cases h
  · rintro ⟨rfl, hplain, rfl⟩
    have hoperands := forall_isOperand_iff.mpr hplain
    have hshares : share "eval" .many (withRoles arguments) = .ok ⟨arguments.erase "--", []⟩ :=
      share_many_eq_ok_iff.mpr ⟨hoperands, plain_texts hoperands⟩
    exact Outcome.map_eq_ok_iff.mpr ⟨_, hshares, rfl⟩

/-- The program carries out a command only if its name comes first and nothing is left over. -/
theorem parseAfter_eq_ok_iff {passed arguments : List String} {command : Command} :
    parseAfter passed arguments = .ok command ↔
      passed = [] ∧ ∃ name rest, arguments = name :: rest ∧ roleOf name = .plain ∧
        commandOf name rest = .ok (command, []) := by
  constructor
  · intro h
    induction arguments generalizing passed with
    | nil => cases h
    | cons argument rest ih =>
      rw [parseAfter] at h
      split at h
      next => cases h
      next => cases h
      next =>
        -- an option in front is left over
        obtain ⟨hnone, -⟩ := ih h
        exact absurd hnone (List.append_ne_nil_of_right_ne_nil _ (List.cons_ne_nil _ _))
      next => cases h
      next hplain =>
        split at h
        next => cases h
        next result surplus hcommand =>
          split at h
          next hempty =>
            cases h
            obtain ⟨hpassed, rfl⟩ := List.append_eq_nil_iff.mp (List.isEmpty_iff.mp hempty)
            exact ⟨hpassed, argument, rest, rfl, hplain, hcommand⟩
          next => cases h
  · rintro ⟨rfl, name, rest, rfl, hplain, hcommand⟩
    rw [parseAfter, hplain]
    simp only [hcommand]
    rfl

/-- The program carries out a batch of expressions exactly if the first argument is the name of the
batch, the arguments in front of a separator are plain, and the expressions are the others without
the separator. -/
theorem parse_eq_ok_eval_iff {arguments expressions : List String} :
    parse arguments = .ok (.eval expressions) ↔
      ∃ rest, arguments = "eval" :: rest ∧
        (∀ argument ∈ rest.takeWhile (· != "--"), roleOf argument = .plain) ∧
        rest.erase "--" = expressions := by
  rw [parse, parseAfter_eq_ok_iff]
  constructor
  · rintro ⟨-, name, rest, rfl, -, hcommand⟩
    obtain ⟨rfl, hplain, htexts⟩ := commandOf_eq_ok_eval_iff.mp hcommand
    exact ⟨rest, rfl, hplain, htexts⟩
  · rintro ⟨rest, rfl, hplain, htexts⟩
    have hcommand := commandOf_eq_ok_eval_iff.mpr ⟨rfl, hplain, htexts⟩
    exact ⟨rfl, "eval", rest, rfl, rfl, hcommand⟩

/-- An expression that begins with a sign is an option here, and with a space in it an
expression. -/
example : parse ["eval", "-(2+3)"] = .error (.surplus ["-(2+3)"]) ∧
    parse ["eval", "-(2 + 3)"] = .ok (.eval ["-(2 + 3)"]) := ⟨rfl, rfl⟩

/-- Plain arguments are expressions of a batch without a separator. -/
theorem parse_eval_plain {expressions : List String}
    (h : ∀ expression ∈ expressions, roleOf expression = .plain) :
    parse ("eval" :: expressions) = .ok (.eval expressions) := by
  have hnone : "--" ∉ expressions := fun hm => nomatch h "--" hm
  have hfront : ∀ argument ∈ expressions.takeWhile (· != "--"), roleOf argument = .plain :=
    fun argument hm => h argument ((List.takeWhile_sublist _).mem hm)
  exact parse_eq_ok_eval_iff.mpr ⟨expressions, rfl, hfront, List.erase_of_not_mem hnone⟩

/-- Behind the separator any texts are expressions of a batch. -/
theorem parse_eval_separator (expressions : List String) :
    parse ("eval" :: "--" :: expressions) = .ok (.eval expressions) := by
  refine parse_eq_ok_eval_iff.mpr ⟨_, rfl, ?_, List.erase_cons_head _ _⟩
  rw [List.takeWhile_cons_of_neg (by decide)]
  exact List.forall_mem_nil _

end Reckoner.CommandLine
