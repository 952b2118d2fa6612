/-!
Bytes written in an alphabet of 64 characters, four for three bytes.
-/

namespace Interaction.Text

/-- The value of a character of the alphabet. -/
def base64Value? (c : Char) : Option Nat :=
  if 'A' ≤ c && c ≤ 'Z' then some (c.toNat - 65)
  else if 'a' ≤ c && c ≤ 'z' then some (c.toNat - 71)
  else if c.isDigit then some (c.toNat + 4)
  else if c = '+' then some 62
  else if c = '/' then some 63
  else none

/-- Decodes from the middle of a group. `count` characters of the group have been
read, `carry` holds their bits that belong to no byte yet, and `pads` is the number of
padding marks right before. Other characters are passed over, and padding that
completes a group ends the text. A group must not end too early. -/
def base64From (count carry pads : Nat) : List Char → Option (List UInt8)
  | [] => if count = 0 then some [] else none
  | c :: rest =>
    if c = '=' then
      if 2 ≤ count then
        if 4 ≤ count + pads + 1 then some [] else base64From count carry (pads + 1) rest
      else base64From count carry pads rest
    else
      match base64Value? c with
      | none => base64From count carry pads rest
      | some v =>
        match count with
        | 0 => base64From 1 v 0 rest
        | 1 => (base64From 2 (v % 16) 0 rest).map (UInt8.ofNat (carry * 4 + v / 16) :: ·)
        | 2 => (base64From 3 (v % 4) 0 rest).map (UInt8.ofNat (carry * 16 + v / 4) :: ·)
        | _ => (base64From 0 0 0 rest).map (UInt8.ofNat (carry * 64 + v) :: ·)

def base64? (cs : List Char) : Option (List UInt8) :=
  base64From 0 0 0 cs

end Interaction.Text
