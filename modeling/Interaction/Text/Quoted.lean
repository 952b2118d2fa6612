import Interaction.Text.CodePoint
import Interaction.Text.Hex
import Interaction.Text.Printable
/-!
Text between quotes, as values are shown in log messages: on one line, with
everything that would not be shown replaced by an escape.
-/

namespace Interaction.Text

/-- The quote that surrounds a text: a single one, unless the text holds single
quotes and no double ones. -/
def quoteFor (cs : List Char) : Char :=
  if cs.contains '\'' && !cs.contains '"' then '"' else '\''

/-- The escape of a code point by its number, in the shortest of three widths. -/
def numericEscape (n : Nat) : List Char :=
  if n < 0x100 then '\\' :: 'x' :: hex 2 n
  else if n < 0x10000 then '\\' :: 'u' :: hex 4 n
  else '\\' :: 'U' :: hex 8 n

/-- One character between the quotes `quote`. -/
def escapeChar (quote c : Char) : List Char :=
  if c = quote || c = '\\' then ['\\', c]
  else if c = '\n' then ['\\', 'n']
  else if c = '\r' then ['\\', 'r']
  else if c = '\t' then ['\\', 't']
  else if isPrintable c then [c]
  else numericEscape c.toNat

/-- One code point between the quotes `quote`. -/
def escapePoint (quote : Char) (n : Nat) : List Char :=
  if isHalf n then numericEscape n else escapeChar quote (Char.ofNat n)

def quoted (s : String) : String :=
  let quote := quoteFor s.toList
  String.ofList (quote :: (points s.toList).flatMap (escapePoint quote) ++ [quote])

/-- The text with everything outside ASCII escaped. -/
def escapedAscii (s : String) : String :=
  String.ofList ((points s.toList).flatMap fun n =>
    if n < 0x80 then [Char.ofNat n] else numericEscape n)

/-- One byte between the quotes `quote`. -/
def escapeByte (quote : Char) (b : UInt8) : List Char :=
  let c := Char.ofNat b.toNat
  if c = quote || c = '\\' then ['\\', c]
  else if c = '\n' then ['\\', 'n']
  else if c = '\r' then ['\\', 'r']
  else if c = '\t' then ['\\', 't']
  else if 0x20 ≤ b.toNat && b.toNat < 0x7F then [c]
  else '\\' :: 'x' :: hex 2 b.toNat

/-- Bytes between quotes, after the letter that marks them. -/
def quotedBytes (bs : List UInt8) : String :=
  let quote := quoteFor (bs.map fun b => Char.ofNat b.toNat)
  String.ofList ('b' :: quote :: bs.flatMap (escapeByte quote) ++ [quote])

end Interaction.Text
