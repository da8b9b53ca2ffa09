import Reckoner.CommandLine
import Reckoner.Proofs.BatchArguments
import Reckoner.Proofs.ExpressionRow
import Reckoner.Proofs.SessionRun

/-!
# Runs of a batch

A batch prints the value of each expression that has one and complains of each that fails, in the
order of the expressions and without stopping, and its status tells whether one failed. From the
input it takes the lines that are not blank, so expressions may be given as arguments or as lines of
the input, with blank lines anywhere between them.
-/

namespace Reckoner

namespace Text

/-- The pieces of characters that are not blank, behind a piece that is read so far. -/
def written (read cs : List Char) : List (List Char) :=
  (endedBy isLineBoundary read cs).filter (!·.all isBlank)

/-- A piece that nothing follows is written unless it is blank. -/
theorem written_nil (read : List Char) :
    written read [] = if read.all isBlank then [] else [read.reverse] := by
  cases read with
  | nil => rfl
  | cons c read =>
    rw [written, endedBy, List.filter_singleton, List.all_reverse]
    cases (c :: read).all isBlank <;> rfl

/-- A character that ends a line ends the piece. -/
theorem written_cons_of_boundary {c : Char} (h : isLineBoundary c = true) (read cs : List Char) :
    written read (c :: cs) = written read [] ++ written [] cs := by
  rw [written_nil, written, endedBy, if_pos h, List.filter_cons, written, List.all_reverse]
  cases read.all isBlank <;> rfl

/-- Any other character belongs to the piece. -/
theorem written_cons_of_free {c : Char} (h : isLineBoundary c = false) (read cs : List Char) :
    written read (c :: cs) = written (c :: read) cs := by
  rw [written, endedBy, if_neg (by simp [h]), written]

/-- Line ends in one form make the same pieces. -/
theorem written_unifyLineEnds (read cs : List Char) :
    written read (unifyLineEnds cs) = written read cs := by
  fun_induction unifyLineEnds cs generalizing read with
  | case1 cs ih =>
    -- between the carriage return and its line feed stands an empty piece
    rw [written_cons_of_boundary rfl, written_cons_of_boundary rfl, written_cons_of_boundary rfl,
      ih]
    rfl
  | case2 c cs _ ih =>
    by_cases hreturn : c = '\r'
    · rw [if_pos (beq_iff_eq.mpr hreturn), hreturn, written_cons_of_boundary rfl,
        written_cons_of_boundary rfl, ih]
    · rw [if_neg (by simpa using hreturn)]
      cases hends : isLineBoundary c with
      | true => rw [written_cons_of_boundary hends, written_cons_of_boundary hends, ih]
      | false => rw [written_cons_of_free hends, written_cons_of_free hends, ih]
  | case3 => rfl

/-- At a line feed the pieces in front of it are complete. -/
theorem written_append_lineFeed (read front cs : List Char) :
    written read (front ++ '\n' :: cs) = written read front ++ written [] cs := by
  induction front generalizing read with
  | nil => exact written_cons_of_boundary rfl read cs
  | cons c front ih =>
    rw [List.cons_append]
    cases hends : isLineBoundary c with
    | true => rw [written_cons_of_boundary hends, written_cons_of_boundary hends, ih,
        List.append_assoc]
    | false => rw [written_cons_of_free hends, written_cons_of_free hends, ih]

/-- Characters of which none ends a line are one piece. -/
theorem written_of_free {read line : List Char} (h : ∀ c ∈ line, isLineBoundary c = false) :
    written read line = written (line.reverse ++ read) [] := by
  induction line generalizing read with
  | nil => rfl
  | cons c line ih =>
    have hrest : ∀ d ∈ line, isLineBoundary d = false := fun d hd => h d (List.mem_cons_of_mem c hd)
    rw [written_cons_of_free (h c List.mem_cons_self), ih hrest, List.reverse_cons,
      List.append_assoc, List.singleton_append]

/-- Blanks are blank however they are divided into pieces. -/
theorem written_of_blank {read line : List Char} (hread : read.all isBlank = true)
    (hline : line.all isBlank = true) : written read line = [] := by
  induction line generalizing read with
  | nil => rw [written_nil, if_pos hread]
  | cons c line ih =>
    rw [List.all_cons, Bool.and_eq_true] at hline
    cases hends : isLineBoundary c with
    | true => rw [written_cons_of_boundary hends, written_nil, if_pos hread, ih rfl hline.2,
        List.append_nil]
    | false =>
      rw [written_cons_of_free hends, ih _ hline.2]
      rw [List.all_cons, hline.1, hread, Bool.and_self]

/-- A line of which only blanks end lines is written unless it is blank. -/
theorem written_line {line : List Char}
    (h : line.all isBlank = false → ∀ c ∈ line, isLineBoundary c = false) :
    written [] line = [line].filter (!·.all isBlank) := by
  cases hblank : line.all isBlank with
  | true =>
    rw [written_of_blank rfl hblank, List.filter_singleton, hblank]
    rfl
  | false =>
    rw [written_of_free (h hblank), List.append_nil, written_nil, List.all_reverse, hblank,
      List.reverse_reverse, List.filter_singleton, hblank]
    rfl

/-- The pieces of joined lines are the lines that are not blank. -/
theorem written_intercalate {lines : List (List Char)}
    (h : ∀ line ∈ lines, line.all isBlank = false → ∀ c ∈ line, isLineBoundary c = false) :
    written [] (['\n'].intercalate lines) = lines.filter (!·.all isBlank) := by
  induction lines with
  | nil => rfl
  | cons line lines ih =>
    have hline := written_line (h line List.mem_cons_self)
    cases lines with
    | nil => rw [List.intercalate_singleton, hline]
    | cons next lines =>
      have hrest := ih fun other hother => h other (List.mem_cons_of_mem line hother)
      rw [List.intercalate_cons_cons, List.append_assoc, List.singleton_append,
        written_append_lineFeed, hline, hrest, ← List.filter_append, List.singleton_append]

end Text

namespace Batch

/-- The line that answers an outcome, if it is a value. -/
def answer? : Except Failure Float → Option String
  | .ok value => some (Number.brief value)
  | .error _ => none

/-- The line that complains of an outcome, if it is a failure. -/
def notice? : Except Failure Float → Option String
  | .ok _ => none
  | .error failure => some failure.notice

/-- What a command comes to that tells some outcomes. -/
structure Tallies (outcomes : List (Except Failure Float)) (result : CommandLine.Result) :
    Prop where
  /-- The stream of answers has a line for each value. -/
  answers : Output.answers result.output =
    String.join ((outcomes.filterMap answer?).map (· ++ "\n"))
  /-- The lines of complaint are those of the failures. -/
  notices : result.output.filterMap Output.complaint? = outcomes.filterMap notice?
  /-- Where the log does not show the details of a calculation, the stream of complaints has no
  other lines. -/
  complaints (threshold : Nat) (hquiet : Level.debug.weight < threshold) :
    Output.complaints threshold result.output =
      String.join ((outcomes.filterMap notice?).map (· ++ "\n"))
  /-- The status tells whether all outcomes are values. -/
  status : result.status = if outcomes.all Except.isOk then 0 else 2

variable {outcomes : List (Except Failure Float)} {events : List Event}

/-- A piece of output is written in front of the others. -/
theorem answers_cons (piece : Output) (output : List Output) :
    Output.answers (piece :: output) = piece.answer ++ Output.answers output := by
  rw [Output.answers, List.map_cons, String.join_cons, Output.answers]

/-- So it is on the stream of complaints. -/
theorem complaints_cons (threshold : Nat) (piece : Output) (output : List Output) :
    Output.complaints threshold (piece :: output) =
      piece.complaintText threshold ++ Output.complaints threshold output := by
  rw [Output.complaints, List.map_cons, String.join_cons, Output.complaints]

/-- Events for the log are no answers. -/
theorem answers_logged (events : List Event) (output : List Output) :
    Output.answers (events.map .logged ++ output) = Output.answers output := by
  induction events with
  | nil => rfl
  | cons event events ih =>
    rw [List.map_cons, List.cons_append, answers_cons, ih]
    exact String.empty_append

/-- Details are not complained of where the log does not show them. -/
theorem complaints_logged {threshold : Nat} (hlow : ∀ event ∈ events, event.level = .debug)
    (hquiet : Level.debug.weight < threshold) (output : List Output) :
    Output.complaints threshold (events.map .logged ++ output) =
      Output.complaints threshold output := by
  induction events with
  | nil => rfl
  | cons event events ih =>
    have hhidden : (Output.logged event).complaintText threshold = "" := by
      rw [Output.complaintText, Log.records, List.filter_cons_of_neg]
      · rfl
      · rw [hlow event List.mem_cons_self]
        simpa using hquiet
    rw [List.map_cons, List.cons_append, complaints_cons, hhidden, String.empty_append]
    exact ih fun other hother => hlow other (List.mem_cons_of_mem event hother)

/-- A value in front is answered. -/
theorem Tallies.value {status : Nat} {output : List Output} (h : Tallies outcomes ⟨status, output⟩)
    (hlow : ∀ event ∈ events, event.level = .debug) (value : Float) :
    Tallies (.ok value :: outcomes)
      ⟨status, events.map .logged ++ .line (Number.brief value) :: output⟩ := by
  have hanswered : (.ok value :: outcomes).filterMap answer? =
      Number.brief value :: outcomes.filterMap answer? := rfl
  have hsilent : (.ok value :: outcomes).filterMap notice? = outcomes.filterMap notice? := rfl
  constructor
  · rw [answers_logged, answers_cons, h.answers, hanswered, List.map_cons, String.join_cons]
    rfl
  · rw [List.filterMap_append, Output.filterMap_logged _ (fun _ => rfl), hsilent, ← h.notices]
    rfl
  · intro threshold hquiet
    rw [complaints_logged hlow hquiet, complaints_cons, h.complaints threshold hquiet, hsilent]
    exact String.empty_append
  · exact h.status

/-- A failure in front is complained of. -/
theorem Tallies.failure {status : Nat} {output : List Output}
    (h : Tallies outcomes ⟨status, output⟩)
    (hlow : ∀ event ∈ events, event.level = .debug) (failure : Failure) :
    Tallies (.error failure :: outcomes)
      ⟨2, events.map .logged ++ .complaint failure.notice :: output⟩ := by
  have hanswered : (.error failure :: outcomes).filterMap answer? = outcomes.filterMap answer? :=
    rfl
  have hnoticed : (.error failure :: outcomes).filterMap notice? =
      failure.notice :: outcomes.filterMap notice? := rfl
  constructor
  · rw [answers_logged, answers_cons, h.answers, hanswered]
    exact String.empty_append
  · rw [List.filterMap_append, Output.filterMap_logged _ (fun _ => rfl), hnoticed, ← h.notices]
    rfl
  · intro threshold hquiet
    rw [complaints_logged hlow hquiet, complaints_cons, h.complaints threshold hquiet, hnoticed,
      List.map_cons, String.join_cons]
    rfl
  · rfl

/-- Every batch tallies the outcomes that one calculator gives. -/
theorem tallies_run (calculator : Calculator) (expressions : List String) :
    Tallies (calculator.outcomes expressions)
      ⟨(run calculator expressions).status, (run calculator expressions).output⟩ := by
  induction expressions generalizing calculator with
  | nil => exact ⟨rfl, rfl, fun _ _ => rfl, rfl⟩
  | cons expression rest ih =>
    have hrest := ih (calculator.after expression)
    have hlow : ∀ event ∈ calculator.events expression, event.level = .debug :=
      fun _ => calculator.level_of_mem_events
    rw [Calculator.outcomes_cons, run]
    cases hevaluate : calculator.evaluate expression with
    | ok answer => exact hrest.value hlow answer.1
    | error failure => exact hrest.failure hlow failure

end Batch

namespace CommandLine

/-- The expressions of an input are the pieces that are not blank. -/
theorem inputExpressions_eq_written (input : String) :
    inputExpressions input = (Text.written [] input.toList).map String.ofList := by
  have hblank (piece : List Char) :
      Text.isAllBlank (String.ofList piece) = piece.all Text.isBlank := by
    rw [Text.isAllBlank, String.toList_ofList]
  rw [inputExpressions, Text.batchLines, List.filter_map, ← Text.written_unifyLineEnds,
    Text.written]
  simp only [Function.comp_def, hblank]

/-- They are the same where the line ends have been brought into one form before. -/
theorem inputExpressions_unifyLineEnds (input : String) :
    inputExpressions (String.ofList (Text.unifyLineEnds input.toList)) =
      inputExpressions input := by
  rw [inputExpressions_eq_written, String.toList_ofList, Text.written_unifyLineEnds,
    inputExpressions_eq_written]

/-- The expressions of joined lines are the lines that are not blank. -/
theorem inputExpressions_intercalate {lines : List String}
    (h : ∀ line ∈ lines, Text.isAllBlank line = false →
      ∀ c ∈ line.toList, Text.isLineBoundary c = false) :
    inputExpressions ("\n".intercalate lines) = lines.filter (!Text.isAllBlank ·) := by
  have hpieces : ∀ piece ∈ lines.map String.toList, piece.all Text.isBlank = false →
      ∀ c ∈ piece, Text.isLineBoundary c = false := by
    intro piece hpiece
    obtain ⟨line, hline, rfl⟩ := List.mem_map.mp hpiece
    exact h line hline
  rw [inputExpressions_eq_written, String.toList_intercalate]
  rw [show "\n".toList = ['\n'] from rfl, Text.written_intercalate hpieces, List.filter_map,
    List.map_map]
  simp only [Function.comp_def, String.ofList_toList, List.map_id']
  rfl

/-- Given expressions are carried out whatever the input holds. -/
theorem runEval_of_ne_nil {expressions : List String} (hsome : expressions ≠ []) (input : String) :
    runEval expressions input =
      ⟨(Batch.run Calculator.fresh expressions).status,
        (Batch.run Calculator.fresh expressions).output⟩ := by
  have hgiven : ¬ expressions.isEmpty = true := by simpa using hsome
  rw [runEval]
  simp only [if_neg hgiven]

/-- Without arguments the batch is that of the input. -/
theorem runEval_nil {expressions : List String} {input : String}
    (hsome : expressions ≠ []) (hinput : inputExpressions input = expressions) (other : String) :
    runEval [] input = runEval expressions other := by
  have hgiven : ¬ expressions.isEmpty = true := by simpa using hsome
  rw [runEval_of_ne_nil hsome, runEval]
  simp only [List.isEmpty_nil, if_true, hinput, if_neg hgiven]

/-- Programs whose commands come to the same on their inputs come to the same. -/
theorem run_congr {arguments others : List String} {command other : Command}
    {environment : List (String × String)} {input otherInput : String} {encoding : Text.Encoding}
    (hcommand : parse arguments = .ok command) (hother : parse others = .ok other)
    (hsame : ∀ settings,
      execute settings encoding (String.ofList (Text.unifyLineEnds input.toList)) command =
        execute settings encoding (String.ofList (Text.unifyLineEnds otherInput.toList)) other) :
    run arguments ⟨environment, input, encoding⟩ =
      run others ⟨environment, otherInput, encoding⟩ := by
  rw [run, run, hcommand, hother]
  simp only [hsame]

/-- Programs of which one is given the expressions that the other finds in its input come to the
same. -/
theorem run_of_inputExpressions {expressions arguments piped : List String} {input : String}
    (hsome : expressions ≠ []) (hinput : inputExpressions input = expressions)
    (harguments : parse arguments = .ok (.eval expressions)) (hpiped : parse piped = .ok (.eval []))
    (environment : List (String × String)) (other : String) (encoding : Text.Encoding) :
    run piped ⟨environment, input, encoding⟩ = run arguments ⟨environment, other, encoding⟩ := by
  refine run_congr hpiped harguments fun settings => ?_
  -- the text of the input is read with its line ends in one form
  exact runEval_nil hsome ((inputExpressions_unifyLineEnds input).trans hinput) _

/-- A batch of expressions tells what one calculator makes of all of them, one after the other. It
does not matter whether they are arguments or, as long as they hold no line ends, lines of the
input with blank lines anywhere between them. So it is with every way to give them as arguments,
and behind the separator all of them may be given. -/
theorem eval_is_one_run {expressions : List String} (hsome : expressions ≠ []) :
    (Calculator.fresh.outcomes expressions).length = expressions.length ∧
    (∀ input, Batch.Tallies (Calculator.fresh.outcomes expressions) (runEval expressions input)) ∧
    ∀ lines : List String, lines.filter (!Text.isAllBlank ·) = expressions →
      (∀ expression ∈ expressions, ∀ c ∈ expression.toList, Text.isLineBoundary c = false) →
      (∀ input, runEval [] ("\n".intercalate lines) = runEval expressions input) ∧
      (∀ arguments piped environment input encoding,
        parse arguments = .ok (.eval expressions) → parse piped = .ok (.eval []) →
          run piped ⟨environment, "\n".intercalate lines, encoding⟩ =
            run arguments ⟨environment, input, encoding⟩) ∧
      ∀ environment input encoding,
        run ["eval"] ⟨environment, "\n".intercalate lines, encoding⟩ =
          run ("eval" :: "--" :: expressions) ⟨environment, input, encoding⟩ := by
  refine ⟨Calculator.length_outcomes _ _, fun input => ?_, fun lines hlines hfree => ?_⟩
  · rw [runEval_of_ne_nil hsome]
    exact Batch.tallies_run Calculator.fresh expressions
  · have hjoined : inputExpressions ("\n".intercalate lines) = expressions := by
      rw [inputExpressions_intercalate, hlines]
      intro line hline hblank
      exact hfree line (hlines ▸ List.mem_filter.mpr ⟨hline, by rw [hblank]; rfl⟩)
    refine ⟨runEval_nil hsome hjoined, ?_, ?_⟩
    · intro arguments piped environment input encoding harguments hpiped
      exact run_of_inputExpressions hsome hjoined harguments hpiped environment input encoding
    · exact run_of_inputExpressions hsome hjoined (parse_eval_separator expressions)
        (parse_eval_plain (List.forall_mem_nil _))

/-- Failures in the middle, an assignment that a later line uses, and blank lines around. -/
theorem eval_is_one_run_mixed :
    ["x = 2", "y", "x = 1 / 0", "x ^ x"] ≠ [] ∧
    runEval [] "\nx = 2\ny\n\t\r\nx = 1 / 0\nx ^ x\n " =
      runEval ["x = 2", "y", "x = 1 / 0", "x ^ x"] "1" ∧
    run ["eval"] ⟨[], "\nx = 2\ny\n\t\r\nx = 1 / 0\nx ^ x\n ", .ascii⟩ =
      run ["eval", "--", "x = 2", "y", "x = 1 / 0", "x ^ x"] ⟨[], "1", .ascii⟩ := by
  have hsome : ["x = 2", "y", "x = 1 / 0", "x ^ x"] ≠ [] := List.cons_ne_nil _ _
  obtain ⟨-, -, hlines⟩ := eval_is_one_run hsome
  obtain ⟨hinput, -, hprogram⟩ :=
    hlines ["", "x = 2", "y", "\t\r", "x = 1 / 0", "x ^ x", " "] (by decide)
      (by simp [Text.isLineBoundary])
  exact ⟨hsome, hinput "1", hprogram [] "1" .ascii⟩

end CommandLine

end Reckoner
