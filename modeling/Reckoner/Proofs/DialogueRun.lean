import Reckoner.Dialogue
import Reckoner.Proofs.ExpressionRow

/-!
# Runs of the dialogue

A dialogue hears the lines before the exit line, or all lines if none of them is the exit line. It
evaluates those that are not blank with one calculator, answers each of them with one line, and asks
for every line with the same prompt. What stands behind the exit line it never reads.
-/

namespace Reckoner.Dialogue

/-- Whether a line is the exit line. -/
def isExit (settings : Settings) (line : String) : Bool :=
  Text.trim line == settings.exitCommand

/-- The lines before the exit line. -/
def heard (settings : Settings) (lines : List String) : List String :=
  lines.takeWhile (!isExit settings ·)

/-- The lines before the exit line that are not blank. -/
def asked (settings : Settings) (lines : List String) : List String :=
  (heard settings lines).filter (!Text.isAllBlank ·)

/-- The line that tells an outcome. -/
def told : Except Failure Float → String
  | .ok value => Number.brief value
  | .error failure => failure.notice

/-- What a dialogue over some lines comes to. -/
structure Recounts (settings : Settings) (calculator : Calculator) (lines : List String)
    (dialogue : Dialogue) : Prop where
  /-- It evaluates the lines that are not blank. -/
  evaluated : dialogue.evaluated = (asked settings lines).length
  /-- It leaves the calculator as they leave it. -/
  leaves : dialogue.calculator = calculator.follow ((asked settings lines).map .evaluate)
  /-- It answers each of them with one line, and ends with an empty one where no exit line is. -/
  answers : dialogue.output.filterMap Output.line? =
    (calculator.outcomes (asked settings lines)).map told ++
      if lines.any (isExit settings) then [] else [""]
  /-- It prompts for each line that it hears, and once more. -/
  prompts : dialogue.prompts = List.replicate ((heard settings lines).length + 1) settings.prompt

variable {settings : Settings} {calculator : Calculator} {line : String} {lines : List String}

/-- The answer to an expression tells its outcome. -/
theorem answerTo_eq_told (calculator : Calculator) (expression : String) :
    answerTo calculator expression = told ((calculator.evaluate expression).map Prod.fst) := by
  rw [answerTo]
  cases calculator.evaluate expression <;> rfl

/-- Events for the log are no prompts. -/
theorem prompts_logged (events : List Event) (output : List Output) (evaluated : Nat)
    (calculator : Calculator) :
    prompts ⟨events.map .logged ++ output, evaluated, calculator⟩ =
      prompts ⟨output, evaluated, calculator⟩ := by
  rw [prompts, List.filterMap_append, List.filterMap_map]
  simp [prompts]

/-- The exit line ends the dialogue. -/
theorem recounts_exit (h : isExit settings line = true) :
    Recounts settings calculator (line :: lines)
      ⟨[.prompt settings.prompt], 0, calculator⟩ := by
  have hheard : heard settings (line :: lines) = [] := by
    rw [heard, List.takeWhile_cons_of_neg (by simp [h])]
  have hasked : asked settings (line :: lines) = [] := by rw [asked, hheard, List.filter_nil]
  have hany : (line :: lines).any (isExit settings) = true := by rw [List.any_cons, h, Bool.true_or]
  constructor
  · rw [hasked]
    rfl
  · rw [hasked]
    rfl
  · rw [hasked, hany]
    rfl
  · rw [hheard]
    rfl

/-- A blank line is passed over. -/
theorem Recounts.blank {rest : Dialogue} (h : Recounts settings calculator lines rest)
    (hexit : isExit settings line = false) (hblank : Text.isAllBlank line = true) :
    Recounts settings calculator (line :: lines)
      ⟨.prompt settings.prompt :: rest.output, rest.evaluated, rest.calculator⟩ := by
  have hheard : heard settings (line :: lines) = line :: heard settings lines :=
    List.takeWhile_cons_of_pos (by simp [hexit])
  have hasked : asked settings (line :: lines) = asked settings lines := by
    rw [asked, hheard, List.filter_cons_of_neg (by simp [hblank])]
    rfl
  have hany : (line :: lines).any (isExit settings) = lines.any (isExit settings) := by
    rw [List.any_cons, hexit, Bool.false_or]
  constructor
  · rw [hasked]
    exact h.evaluated
  · rw [hasked]
    exact h.leaves
  · rw [hasked, hany]
    exact h.answers
  · rw [hheard]
    exact congrArg (settings.prompt :: ·) h.prompts

/-- Any other line is evaluated and answered. -/
theorem Recounts.answer {rest : Dialogue}
    (h : Recounts settings (calculator.after line) lines rest)
    (hexit : isExit settings line = false) (hblank : Text.isAllBlank line = false) :
    Recounts settings calculator (line :: lines)
      ⟨.prompt settings.prompt :: (calculator.events line).map .logged ++
          .line (answerTo calculator line) :: rest.output,
        rest.evaluated + 1, rest.calculator⟩ := by
  have hheard : heard settings (line :: lines) = line :: heard settings lines :=
    List.takeWhile_cons_of_pos (by simp [hexit])
  have hasked : asked settings (line :: lines) = line :: asked settings lines := by
    rw [asked, hheard, List.filter_cons_of_pos (by simp [hblank])]
    rfl
  have hany : (line :: lines).any (isExit settings) = lines.any (isExit settings) := by
    rw [List.any_cons, hexit, Bool.false_or]
  have houtput : (Output.prompt settings.prompt :: (calculator.events line).map Output.logged ++
        Output.line (answerTo calculator line) :: rest.output).filterMap Output.line? =
      answerTo calculator line :: rest.output.filterMap Output.line? := by
    rw [List.cons_append, List.filterMap_cons_none rfl, List.filterMap_append,
      Output.filterMap_logged _ (fun _ => rfl), List.nil_append]
    rfl
  constructor
  · rw [hasked, List.length_cons, h.evaluated]
  · rw [hasked, Calculator.follow_evaluate_cons]
    exact h.leaves
  · rw [houtput, hasked, hany, Calculator.outcomes_cons, List.map_cons, ← answerTo_eq_told,
      h.answers, List.cons_append]
  · rw [hheard, List.length_cons, List.replicate_succ, ← h.prompts]
    exact congrArg (settings.prompt :: ·) (prompts_logged _ (.line _ :: rest.output) 0 calculator)

/-- Every dialogue comes to this. -/
theorem recounts_run (settings : Settings) (calculator : Calculator) (lines : List String) :
    Recounts settings calculator lines (run settings calculator lines) := by
  induction lines generalizing calculator with
  | nil => exact ⟨rfl, rfl, rfl, rfl⟩
  | cons line lines ih =>
    rw [run]
    split
    next hexit => exact recounts_exit hexit
    next hexit =>
      split
      next hblank => exact (ih calculator).blank (Bool.eq_false_iff.mpr hexit) hblank
      next hblank =>
        exact (ih (calculator.after line)).answer (Bool.eq_false_iff.mpr hexit)
          (Bool.eq_false_iff.mpr hblank)

/-- A dialogue depends on the lines up to the exit line only. -/
theorem run_take (settings : Settings) (calculator : Calculator) (lines : List String) :
    run settings calculator (lines.take ((heard settings lines).length + 1)) =
      run settings calculator lines := by
  induction lines generalizing calculator with
  | nil => rfl
  | cons line lines ih =>
    by_cases hexit : isExit settings line = true
    · have hstop (rest : List String) : run settings calculator (line :: rest) =
          ⟨[.prompt settings.prompt], 0, calculator⟩ := by
        exact if_pos hexit
      rw [List.take_succ_cons, hstop, hstop]
    · have hheard : heard settings (line :: lines) = line :: heard settings lines :=
        List.takeWhile_cons_of_pos (by simpa using hexit)
      rw [hheard, List.length_cons, List.take_succ_cons, run, run, ih, ih]

/-- A dialogue evaluates the lines before the exit line that are not blank, which are those that
have tokens, and answers each of them. It reads nothing behind the exit line. -/
theorem run_folds_lines (settings : Settings) (calculator : Calculator) (lines : List String) :
    Recounts settings calculator lines (run settings calculator lines) ∧
    run settings calculator (lines.take ((heard settings lines).length + 1)) =
      run settings calculator lines ∧
    ∀ line, Text.isAllBlank line = true ↔ Token.ofText line = [] :=
  ⟨recounts_run settings calculator lines, run_take settings calculator lines,
    fun _ => Token.ofText_eq_nil_iff.symm⟩

/-- A failure is told and the dialogue goes on; with an empty exit line the first blank line ends
it. -/
example :
    (run { exitCommand := "" } Calculator.fresh ["x = ", "x = 2", "x ^", " \t", "x"]).evaluated =
      3 := by
  decide +kernel

end Reckoner.Dialogue
