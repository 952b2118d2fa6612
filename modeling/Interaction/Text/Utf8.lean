import Interaction.Fault
import Interaction.Text.CodePoint
/-!
Characters written as bytes, one to four for each.
-/

namespace Interaction.Text

/-- The number of bytes that a first byte announces, and the range of the second. -/
def sequenceOf? (b : UInt8) : Option (Nat × Nat × Nat) :=
  let n := b.toNat
  if n < 0x80 then some (1, 0, 0)
  else if n < 0xC2 then none
  else if n < 0xE0 then some (2, 0x80, 0xBF)
  else if n = 0xE0 then some (3, 0xA0, 0xBF)
  else if n = 0xED then some (3, 0x80, 0x9F)
  else if n < 0xF0 then some (3, 0x80, 0xBF)
  else if n = 0xF0 then some (4, 0x90, 0xBF)
  else if n < 0xF4 then some (4, 0x80, 0xBF)
  else if n = 0xF4 then some (4, 0x80, 0x8F)
  else none

/-- How many of the bytes after the first go on with the character, `count` at
most. The next of them lies between `low` and `high`. -/
def following (low high : Nat) : Nat → List UInt8 → Nat
  | 0, _ => 0
  | _, [] => 0
  | count + 1, b :: rest =>
    if low ≤ b.toNat && b.toNat ≤ high then following 0x80 0xBF count rest + 1 else 0

/-- The code point of the bytes of one character. -/
def codePoint : List UInt8 → Nat
  | [a] => a.toNat
  | [a, b] => (a.toNat % 32) * 64 + b.toNat % 64
  | [a, b, c] => ((a.toNat % 16) * 64 + b.toNat % 64) * 64 + c.toNat % 64
  | [a, b, c, d] =>
    (((a.toNat % 8) * 64 + b.toNat % 64) * 64 + c.toNat % 64) * 64 + d.toNat % 64
  | _ => 0

/-- The characters of bytes, and the bytes at the end that begin a character without
completing it. `position` is the number of bytes before. -/
def decodePart (position : Nat) : Nat → List UInt8 →
    Except DecodingFault (List Char × List UInt8)
  | 0, bytes => .ok ([], bytes)
  | _, [] => .ok ([], [])
  | fuel + 1, b :: rest =>
    match sequenceOf? b with
    | none => .error ⟨position, position, b, "invalid start byte"⟩
    | some (length, low, high) =>
      let more := following low high (length - 1) rest
      if more + 1 = length then do
        let (chars, left) ← decodePart (position + length) fuel (rest.drop more)
        return (Char.ofNat (codePoint (b :: rest.take more)) :: chars, left)
      else if rest.length = more then .ok ([], b :: rest)
      else .error ⟨position, position + more, b, "invalid continuation byte"⟩

/-- The characters of bytes, and the bytes at the end that begin a character. There
may be none of them if nothing follows. -/
def decodeSome (bytes : List UInt8) (final : Bool) :
    Except DecodingFault (List Char × List UInt8) := do
  let (chars, left) ← decodePart 0 bytes.length bytes
  match final, left with
  | true, b :: rest =>
    let first := bytes.length - left.length
    throw ⟨first, first + rest.length, b, "unexpected end of data"⟩
  | _, _ => return (chars, left)

def decode (bytes : List UInt8) : Except Fault String :=
  match decodeSome bytes true with
  | .ok (chars, _) => .ok (String.ofList (spelled chars))
  | .error fault => .error (.decoding fault)

/-- The bytes of a text. A half has none of its own, and is replaced. -/
def encode (s : String) : List UInt8 :=
  (String.ofList ((points s.toList).map fun n => Char.ofNat (if isHalf n then 0xFFFD else n))).toUTF8.toList

end Interaction.Text
