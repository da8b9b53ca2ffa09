import Reckoner.Calculator
import Reckoner.Report.Cell
import Reckoner.Text.Encoding

/-!
# Tables of an explanation

Two tables in plain characters: what an expression is and what it comes to, and the steps on the
way. The title stands over the middle of its table.
-/

namespace Reckoner.Report

/-- A row of some dashes. -/
def dashes (count : Nat) : List Char :=
  List.replicate count '-'

/-- Characters behind blanks up to a width. -/
def padLeft (limit : Nat) (cs : List Char) : List Char :=
  List.replicate (limit - width cs) ' ' ++ cs

/-- Characters over the middle of a width; an odd blank goes to the right. -/
def centred (limit : Nat) (cs : List Char) : List Char :=
  let left := (limit - width cs) / 2
  List.replicate left ' ' ++ cs ++ List.replicate (limit - width cs - left) ' '

/-- The width of the widest text. -/
def columnWidth (texts : List (List Char)) : Nat :=
  (texts.map widest).foldl max 0

/-- The rows of two cells side by side, the shorter one filled up with empty rows. -/
def sideBySide (first second : List (List Char)) (firstWidth secondWidth : Nat) :
    List (List Char × List Char) :=
  let height := max first.length second.length
  (List.range height).map fun i =>
    (first.getD i (List.replicate firstWidth ' '), second.getD i (List.replicate secondWidth ' '))

/-- A table of keys and values without a heading. -/
def keyTable (title : List Char) (entries : List (List Char × List Char)) : List (List Char) :=
  let keys := columnWidth (entries.map Prod.fst)
  let values := columnWidth (entries.map Prod.snd)
  let border := '+' :: dashes (keys + values + 3) ++ ['+']
  let body := entries.flatMap fun (key, value) =>
    (sideBySide (rows keys key) (rows values value) keys values).map fun (k, v) =>
      '|' :: k ++ [' ', '|', ' '] ++ v ++ ['|']
  centred (keys + values + 5) title :: border :: body ++ [border]

/-- A table of texts with their numbers, under a heading. -/
def numberedTable (title heading : List Char) (texts : List (List Char)) : List (List Char) :=
  let mark := ['#']
  let numbers := (List.range texts.length).map fun i => Number.naturalText (i + 1)
  let left := columnWidth (mark :: numbers)
  let right := columnWidth (heading :: texts)
  let border := '+' :: dashes (left + right + 5) ++ ['+']
  let rule := '|' :: dashes (left + 2) ++ '+' :: dashes (right + 2) ++ ['|']
  let line (number text : List Char) : List Char :=
    '|' :: ' ' :: number ++ [' ', '|', ' '] ++ text ++ [' ', '|']
  let body := (numbers.zip texts).flatMap fun (number, text) =>
    (sideBySide [padLeft left number] (rows right text) left right).map fun (n, t) => line n t
  centred (left + right + 7) title :: border :: line (padLeft left mark) (fit right heading) ::
    rule :: body ++ [border]

/-- The tables of an explanation, as a terminal with an encoding shows them. -/
def explanationLines (encoding : Text.Encoding) (explanation : Explanation) : List String :=
  let shown (text : String) : List Char := encoding.shown text.toList
  let rpn := Token.joinTexts explanation.rpn
  let entries :=
    [("input", explanation.expression), ("postfix", if rpn.isEmpty then "EMPTY" else rpn),
      ("assigned", explanation.assigned.getD "-"), ("value", Number.brief explanation.value)]
  let summary := keyTable "Expression".toList
    (entries.map fun (key, value) => (shown key, shown value))
  let steps :=
    if explanation.steps.isEmpty then []
    else numberedTable ("Steps [".toList ++ Number.naturalText explanation.steps.length ++ [']'])
      "Step".toList (explanation.steps.map fun step => shown step.text)
  (summary ++ steps).map String.ofList

end Reckoner.Report
