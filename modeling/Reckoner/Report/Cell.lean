import Reckoner.Text.Lines

/-!
# Table cells

The text of a table cell as lines of one width, counted in terminal cells. A line feed ends a
line, a tab reaches to the next multiple of eight, and a line that is too long is broken between
words. A row that is still too long is shortened, with an ellipsis at its end.
-/

namespace Reckoner.Report

open Reckoner.Text

/-- The terminal cells that a character takes: none for controls and line separators, two for the
ideographic space, and one for the others that an expression with a value can hold. -/
def charWidth (c : Char) : Nat :=
  let n := c.toNat
  if n < 0x20 || (0x7F ≤ n && n < 0xA0) || n == 0x2028 || n == 0x2029 then 0
  else if n == 0x3000 then 2
  else 1

/-- The terminal cells that characters take. -/
def width : List Char → Nat
  | [] => 0
  | c :: cs => charWidth c + width cs

/-- The controls that would move the cursor; a cell leaves them out. -/
def isCursorControl (c : Char) : Bool :=
  c == '\x07' || c == '\x08' || c == '\x0b' || c == '\x0c' || c == '\x0d'

/-- The pieces between the characters in `p`. -/
def pieces (p : Char → Bool) : List Char → List (List Char)
  | [] => [[]]
  | c :: cs =>
    if p c then [] :: pieces p cs
    else match pieces p cs with
      | piece :: rest => (c :: piece) :: rest
      | [] => [[c]]

/-- A line with spaces for its tabs, starting behind `before` cells. -/
def expandTabs (before : Nat) : List Char → List Char
  | [] => []
  | c :: cs =>
    if c == '\t' then
      List.replicate (8 - before % 8) ' ' ++ expandTabs (before + (8 - before % 8)) cs
    else c :: expandTabs (before + charWidth c) cs

/-- The words of a line, each with the blanks behind it and the first one also with the blanks
before it. -/
def words : List Char → List (List Char)
  | [] => []
  | c :: cs =>
    let blanks := if isBlank c then (cs.takeWhile isBlank).length else 0
    let inside := ((cs.drop blanks).takeWhile (!isBlank ·)).length
    let after := ((cs.drop (blanks + inside)).takeWhile isBlank).length
    (c :: cs.take (blanks + inside + after)) :: words (cs.drop (blanks + inside + after))
termination_by cs => cs.length
decreasing_by grind

/-- The words in rows: a word goes on with the row begun, the first argument, where the row stays
within `limit` cells, blanks at its end not counted. The first word of a row may be longer. -/
def fill (limit : Nat) (row : List Char) : List (List Char) → List (List Char)
  | [] => [row]
  | word :: rest =>
    if row.isEmpty || width row + width (word.reverse.dropWhile isBlank) ≤ limit then
      fill limit (row ++ word) rest
    else row :: fill limit word rest

/-- The characters that fit into `limit` cells, those without a cell of their own together with
the character before them. -/
def clip (limit : Nat) : List Char → List Char
  | [] => []
  | c :: cs => if limit < charWidth c then [] else c :: clip (limit - charWidth c) cs

/-- A row with an ellipsis for its end, as long as `limit` cells. Half of a character of two cells
is a space, and an ellipsis that takes all there is stands alone. -/
def abbreviate (limit : Nat) (row : List Char) : List Char :=
  let kept := if limit ≤ 1 then [] else clip (limit - 1) row
  kept ++ List.replicate (limit - 1 - width kept) ' ' ++ ['…']

/-- A row of exactly `limit` cells. Blanks at its end are cut while it has more characters than
there are cells; then it is abbreviated or filled up with spaces. -/
def fit (limit : Nat) (row : List Char) : List Char :=
  let blanks := (row.reverse.takeWhile isBlank).length
  let cut := row.take (row.length - min blanks (row.length - limit))
  if limit < width cut then abbreviate limit cut
  else cut ++ List.replicate (limit - width cut) ' '

/-- The terminal cells that the longest line of a text takes. -/
def widest (text : List Char) : Nat :=
  ((pieces isLineBoundary (text.filter (!isCursorControl ·))).map width).foldl max 0

/-- The rows of a text in a column of `limit` cells. -/
def rows (limit : Nat) (text : List Char) : List (List Char) :=
  (pieces (· == '\n') (text.filter (!isCursorControl ·))).flatMap fun line =>
    let line := expandTabs 0 line
    (if line.all isBlank then [line] else fill limit [] (words line)).map (fit limit)

end Reckoner.Report
