/-!
Code points of texts. Data and documents may hold halves of pairs, the code points
from `U+D800` to `U+DFFF`, which are no characters by themselves. A text holds two
characters for such a half, of which the first is a mark, and holds the mark twice for
the mark itself. Every other character stands for itself.
-/

namespace Interaction.Text

/-- Whether a code point is a half of a pair. -/
def isHalf (n : Nat) : Bool :=
  0xD800 ≤ n && n ≤ 0xDFFF

/-- The character that is put in front of one that does not stand for itself. -/
def mark : Char :=
  Char.ofNat 0x10FFFF

/-- How far the character after the mark is away from the half that it stands for. -/
def shift : Nat := 0x800

/-- The characters that a text holds for a code point. -/
def spell (n : Nat) : List Char :=
  if isHalf n then [mark, Char.ofNat (n + shift)]
  else if n = mark.toNat then [mark, mark]
  else [Char.ofNat n]

/-- The code point that a character stands for after a mark. -/
def marked (c : Char) : Nat :=
  if c = mark then c.toNat else c.toNat - shift

/-- The code points of a text. -/
def points : List Char → List Nat
  | [] => []
  | [c] => [c.toNat]
  | c :: d :: rest => if c = mark then marked d :: points rest else c.toNat :: points (d :: rest)

/-- The text of code points. -/
def ofPoints (ns : List Nat) : String :=
  String.ofList (ns.flatMap spell)

/-- How many code points a text has. -/
def size (cs : List Char) : Nat :=
  (points cs).length

/-- What a text holds for characters. -/
def spelled (cs : List Char) : List Char :=
  cs.flatMap fun c => spell c.toNat

/-- The code point that two halves make, if the first is a high one and the second a
low one. -/
def pair? (high low : Nat) : Option Nat :=
  if 0xD800 ≤ high && high < 0xDC00 && 0xDC00 ≤ low && low < 0xE000 then
    some (0x10000 + (high - 0xD800) * 0x400 + (low - 0xDC00))
  else none

end Interaction.Text
