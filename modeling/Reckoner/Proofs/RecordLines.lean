import Reckoner.Proofs.BatchRun
import Reckoner.Proofs.FailureMessage

/-!
# Lines and records

Lines are written behind one another, each with a line feed behind it. If they hold no line ends,
they are found again in the text that they make. Such are the lines that tell a failure, and the
records of a calculation: what these say is made of quotations, of lexemes and of numbers, whatever
the expression is.
-/

namespace Reckoner

open Text

namespace Text

/-- Where no carriage return is, the line ends have one form. -/
theorem unifyLineEnds_of_forall {cs : List Char} (h : ∀ c ∈ cs, c ≠ '\r') :
    unifyLineEnds cs = cs := by
  fun_induction unifyLineEnds cs with
  | case1 cs ih => exact absurd rfl (h '\r' List.mem_cons_self)
  | case2 c cs hpair ih =>
    rw [if_neg (by simpa using h c List.mem_cons_self),
      ih fun d hd => h d (List.mem_cons_of_mem c hd)]
  | case3 => rfl

/-- Characters that keep to their line are the piece that a line feed ends. -/
theorem endedBy_line {line : List Char} (h : ∀ c ∈ line, isLineBoundary c = false)
    (read cs : List Char) :
    endedBy isLineBoundary read (line ++ '\n' :: cs) =
      (read.reverse ++ line) :: endedBy isLineBoundary [] cs := by
  induction line generalizing read with
  | nil =>
    rw [List.nil_append, List.append_nil, endedBy]
    rfl
  | cons c line ih =>
    rw [List.cons_append, endedBy, if_neg (by simp [h c List.mem_cons_self]),
      ih fun d hd => h d (List.mem_cons_of_mem c hd), List.reverse_cons, List.append_assoc,
      List.singleton_append]

/-- The text of some lines. -/
def ofLines (lines : List String) : String :=
  String.join (lines.map (· ++ "\n"))

/-- The first line is written in front of the others. -/
theorem ofLines_cons (line : String) (lines : List String) :
    ofLines (line :: lines) = line ++ "\n" ++ ofLines lines := by
  rw [ofLines, List.map_cons, String.join_cons, ofLines]

/-- Lines behind others are written behind them. -/
theorem ofLines_append (lines more : List String) :
    ofLines (lines ++ more) = ofLines lines ++ ofLines more := by
  induction lines with
  | nil => exact String.empty_append.symm
  | cons line lines ih =>
    rw [List.cons_append, ofLines_cons, ih, ofLines_cons, ← String.append_assoc]

/-- The characters of the text are those of the lines, each with a line feed behind it. -/
theorem toList_ofLines (lines : List String) :
    (ofLines lines).toList = lines.flatMap (·.toList ++ ['\n']) := by
  induction lines with
  | nil => rfl
  | cons line lines ih =>
    rw [ofLines_cons, String.toList_append, String.toList_append, ih, List.flatMap_cons]
    rfl

/-- Lines that hold no line end are found again in their text. -/
theorem batchLines_ofLines {lines : List String} (h : ∀ line ∈ lines, Every keepsLine line) :
    batchLines (ofLines lines) = lines := by
  have hkeeps : ∀ line ∈ lines, ∀ c ∈ line.toList, isLineBoundary c = false := by
    intro line hline c hc
    simpa [keepsLine] using h line hline c hc
  have hunified : ∀ c ∈ lines.flatMap (·.toList ++ ['\n']), c ≠ '\r' := by
    intro c hc
    obtain ⟨line, hline, hc⟩ := List.mem_flatMap.mp hc
    rcases List.mem_append.mp hc with hc | hc
    · rintro rfl
      exact absurd (hkeeps line hline _ hc) (by decide)
    · rw [List.mem_singleton.mp hc]
      decide
  rw [batchLines, toList_ofLines, unifyLineEnds_of_forall hunified]
  clear h hunified
  induction lines with
  | nil => rfl
  | cons line lines ih =>
    rw [List.forall_mem_cons] at hkeeps
    rw [List.flatMap_cons, List.append_assoc, List.singleton_append, endedBy_line hkeeps.1,
      List.reverse_nil, List.nil_append, List.map_cons, String.ofList_toList, ih hkeeps.2]

end Text

/-! ## What the log tells of a calculation -/

/-- A token of a text holds no line end, as it holds no blank. -/
theorem Token.every_text {token : Token} {text : String} (h : token ∈ ofText text) :
    Every keepsLine token.text := by
  intro c hc
  have hfree := isBlank_of_mem_lexeme (isValid_of_mem_ofText h) hc
  rw [keepsLine, Bool.not_eq_true', Bool.eq_false_iff]
  exact fun hends => Bool.false_ne_true (hfree.symm.trans (isBlank_of_isLineBoundary hends).1)

/-- A sign holds no line end as its place reads it. -/
theorem Rpn.every_readOperator {token : Token} (h : Every keepsLine token.text)
    (previous : Option Token) : Every keepsLine (readOperator previous token).text := by
  have hfront : ∀ symbol ∈ Operator.frontForm? token.text, Every keepsLine symbol := by
    intro symbol hsymbol
    rw [Operator.frontForm?] at hsymbol
    split at hsymbol
    · cases hsymbol
      decide
    · split at hsymbol
      · cases hsymbol
        decide
      · cases hsymbol
  rw [readOperator]
  split
  · split
    next symbol hsymbol => exact hfront symbol hsymbol
    next => exact h
  · exact h

/-- Tokens without line ends are arranged to tokens without line ends. -/
theorem Rpn.every_text_of_arrange {tokens output : List Token} (h : arrange tokens = .ok output)
    (hkeeps : ∀ token ∈ tokens, Every keepsLine token.text) :
    ∀ token ∈ output, Every keepsLine token.text := by
  intro t ht
  obtain ⟨token, htoken, previous, ht⟩ :=
    exists_mem_of_mem_readings ((arrange_perm h).mem_iff.mp ht)
  unfold reading at ht
  split at ht
  · rw [List.mem_singleton.mp ht]
    exact hkeeps token htoken
  · rw [List.mem_singleton.mp ht]
    exact hkeeps token htoken
  · rw [List.mem_singleton.mp ht]
    exact every_readOperator (hkeeps token htoken) previous
  · cases ht
  · cases ht

/-- The texts of tokens without line ends make a text without line ends. -/
theorem Token.every_joinTexts {tokens : List Token}
    (h : ∀ token ∈ tokens, Every keepsLine token.text) : Every keepsLine (joinTexts tokens) := by
  refine every_intercalate (by decide) fun text htext => ?_
  obtain ⟨token, htoken, rfl⟩ := List.mem_map.mp htext
  exact h token htoken

/-- A record holds no line end if what it says holds none. -/
theorem Event.every_record {event : Event} (h : Every keepsLine event.message) :
    Every keepsLine event.record := by
  have hcolon : Every keepsLine ":" := by decide
  have hlevel : Every keepsLine event.level.name := by
    cases event.level <;> decide
  have hchannel : Every keepsLine event.channel := by
    unfold channel
    split <;> decide
  exact (((hlevel.append hcolon).append hchannel).append hcolon).append h

/-- A calculation is recorded without line ends, whatever the expression is. -/
theorem Calculator.every_record {calculator : Calculator} {expression : String} {event : Event}
    (h : event ∈ calculator.events expression) : Every keepsLine event.record := by
  rw [events] at h
  split at h
  next => cases h
  next prepared hprepared =>
    obtain ⟨rpn, harrange, rfl⟩ := prepare_eq_ok_iff.mp hprepared
    have htexts := Token.every_joinTexts <| Rpn.every_text_of_arrange harrange fun token htoken =>
      Token.every_text (mem_ofText_of_mem_expressionTokens htoken)
    rw [List.mem_append] at h
    rcases h with h | h
    · rcases List.mem_pair.mp h with rfl | rfl
      · exact Event.every_record (Every.append (by decide) htexts)
      · have harrow : Every keepsLine " → " := by decide
        exact Event.every_record
          (((inert_of_printable (every_quoted expression)).line.append harrow).append htexts)
    · split at h
      next name value htarget hvalue =>
        rw [List.mem_singleton.mp h]
        have hname : Every keepsLine name := by
          have hmem : .identifier name ∈ Token.ofText expression := by
            change (Statement.ofTokens (Token.ofText expression)).target = some name at htarget
            rw [ofText_eq, htarget]
            exact List.mem_cons_self
          exact Token.every_text hmem
        have hfront : Every keepsLine "Assigned " := by decide
        have hsign : Every keepsLine " = " := by decide
        exact Event.every_record
          (((hfront.append hname).append hsign).append
            (inert_of_printable (Number.every_full value)).line)
      next => cases h

/-- A failure of an expression in a row has a message that is shown as it is. -/
theorem Calculator.inert_of_mem_outcomes {calculator : Calculator} {expressions : List String}
    {failure : Failure} (h : .error failure ∈ calculator.outcomes expressions) :
    Inert failure.message := by
  induction expressions generalizing calculator with
  | nil => cases h
  | cons expression rest ih =>
    rw [outcomes_cons, List.mem_cons] at h
    rcases h with hfirst | hrest
    · exact inert_of_evaluate (Outcome.map_eq_error_iff.mp hfirst.symm)
    · exact ih hrest

/-- A notice holds no line end if the message holds none. -/
theorem Failure.every_notice {failure : Failure} (h : Inert failure.message) :
    Every keepsLine failure.notice :=
  Every.append (by decide) h.line

end Reckoner
