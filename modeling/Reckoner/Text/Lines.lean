import Reckoner.Text.Blank

/-!
# Lines of a text

Two divisions of a text into lines. Terminal input has line feeds only, once carriage returns are
read as line feeds. A batch of expressions is also divided at the other characters that end a line.
-/

namespace Reckoner.Text

/-- The characters that end a line. -/
def isLineBoundary (c : Char) : Bool :=
  let n := c.toNat
  (0x0A ≤ n && n ≤ 0x0D) || (0x1C ≤ n && n ≤ 0x1E) || n == 0x85 || n == 0x2028 || n == 0x2029

/-- The pieces between the characters in `p`, each of which ends a piece; what follows the last
one is a piece unless it is empty. The first argument is the piece read so far, newest first. -/
def endedBy (p : Char → Bool) : List Char → List Char → List (List Char)
  | [], [] => []
  | c :: cs, [] => [(c :: cs).reverse]
  | read, c :: cs => if p c then read.reverse :: endedBy p [] cs else endedBy p (c :: read) cs

/-- Line ends in the one form of a line feed: a carriage return counts as one, and so does a
carriage return with its line feed. -/
def unifyLineEnds : List Char → List Char
  | '\r' :: '\n' :: cs => '\n' :: unifyLineEnds cs
  | c :: cs => (if c == '\r' then '\n' else c) :: unifyLineEnds cs
  | [] => []

/-- The lines of terminal input. -/
def inputLines (text : String) : List String :=
  (endedBy (· == '\n') [] text.toList).map String.ofList

/-- The lines of a batch: a carriage return with its line feed ends one line. -/
def batchLines (text : String) : List String :=
  (endedBy isLineBoundary [] (unifyLineEnds text.toList)).map String.ofList

end Reckoner.Text
