/-!
# Blank characters

The blanks are the characters that separate lexemes and that are cut from the ends of a line.
The set holds the ASCII layout characters, the four ASCII separators, and every Unicode space.
-/

namespace Reckoner.Text

/-- The blanks: ASCII layout and separator characters, the space, the next-line control, and the
Unicode spaces and line and paragraph separators. -/
def isBlank (c : Char) : Bool :=
  let n := c.toNat
  (0x09 ≤ n && n ≤ 0x0D) || (0x1C ≤ n && n ≤ 0x20) || n == 0x85 || n == 0xA0 || n == 0x1680 ||
    (0x2000 ≤ n && n ≤ 0x200A) || n == 0x2028 || n == 0x2029 || n == 0x202F || n == 0x205F ||
    n == 0x3000

/-- The characters without the ones in `p` at either end. -/
def trimWhile (p : Char → Bool) (cs : List Char) : List Char :=
  ((cs.dropWhile p).reverse.dropWhile p).reverse

/-- The text without blanks at either end. -/
def trim (text : String) : String :=
  String.ofList (trimWhile isBlank text.toList)

/-- A text of blanks only, the empty text included. -/
def isAllBlank (text : String) : Bool :=
  text.toList.all isBlank

end Reckoner.Text
