/-!
# Terminal encodings

A terminal shows the characters of its encoding. Arrows and dashes have stand-ins that every
terminal shows; other characters that the encoding lacks are shown as question marks.
-/

namespace Reckoner.Text

/-- The encoding of a terminal. -/
inductive Encoding where
  /-- All characters. -/
  | utf8
  /-- The characters below 128. -/
  | ascii
  /-- The characters below 256. -/
  | latin1
  deriving DecidableEq, Repr

/-- Whether an encoding has a character. -/
def Encoding.holds : Encoding → Char → Bool
  | .utf8, _ => true
  | .ascii, c => c.toNat < 0x80
  | .latin1, c => c.toNat < 0x100

/-- The stand-ins of arrows and dashes. -/
def standIn (c : Char) : List Char :=
  if c == '→' then ['-', '>'] else if c == '—' then ['-'] else [c]

/-- What a terminal shows of some characters. -/
def Encoding.shown (encoding : Encoding) (cs : List Char) : List Char :=
  (cs.flatMap standIn).map fun c => if encoding.holds c then c else '?'

end Reckoner.Text
