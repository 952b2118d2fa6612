import Interaction.Decimal.Shortest
import Interaction.Text.Blank
import Interaction.Text.Numeral
/-!
The number that a decimal text denotes: a sign, digits with a point among them,
and an exponent.
-/

namespace Interaction.Decimal

/-- The run of digits that a text begins with, and the rest. -/
def spanDigits (cs : List Char) : List Char × List Char :=
  cs.span fun c => (Text.digitValue? c).isSome

/-- A sign, if the text begins with one, and the rest. -/
def spanSign : List Char → Bool × List Char
  | '-' :: rest => (true, rest)
  | '+' :: rest => (false, rest)
  | cs => (false, cs)

/-- The exponent that the rest of a number is; none is zero. -/
def exponent? : List Char → Option Int
  | [] => some 0
  | e :: rest =>
    let (negative, after) := spanSign rest
    let (digits, rest) := spanDigits after
    if (e = 'e' || e = 'E') && !digits.isEmpty && rest.isEmpty then
      let n : Int := Text.numeralValue digits
      some (if negative then -n else n)
    else none

/-- The number that a text without sign denotes. -/
def magnitude? (negative : Bool) (cs : List Char) : Option Float :=
  let word := String.ofList (cs.map Char.toLower)
  if word = "inf" || word = "infinity" then
    some (if negative then Float.ofBits 0xFFF0000000000000 else Float.ofBits 0x7FF0000000000000)
  else if word = "nan" then some (Float.ofBits 0x7FF8000000000000)
  else
    let (whole, rest) := spanDigits cs
    let (fraction, rest) := match rest with
      | '.' :: after => spanDigits after
      | _ => ([], rest)
    if whole.isEmpty && fraction.isEmpty then none
    else (exponent? rest).map fun power =>
      toFloat negative (Text.numeralValue (whole ++ fraction)) (power - fraction.length)

/-- The number that a text denotes, whatever blanks are around it. -/
def read? (cs : List Char) : Option Float :=
  let (negative, rest) := spanSign (Text.trimChars cs)
  magnitude? negative rest

end Interaction.Decimal
