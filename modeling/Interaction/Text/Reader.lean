import Interaction.Text.Split
import Interaction.Text.Utf8
/-!
Reading bytes as text little by little. A portion of bytes is decoded when its
characters are asked for, and each kind of line end becomes a line feed.
-/

namespace Interaction.Text

/-- Bytes that are read as text, and what has been read ahead of them. -/
structure Reader where
  bytes : List UInt8
  /-- The first bytes of a character that goes on in the next portion. -/
  left : List UInt8 := []
  /-- Whether a carriage return was met last; a line feed may follow it. -/
  held : Bool := false
  /-- Characters that have been decoded and not been given yet. -/
  ready : List Char := []
  /-- The number of bytes of the latest portion. -/
  spent : Nat := 0
  /-- The number of characters that the latest portion made. -/
  gained : Nat := 0
  deriving Inhabited

namespace Reader

/-- The least size of a portion in bytes. -/
def portionSize : Nat := 8192

/-- The size of a portion in bytes, if a number of characters is asked for. They are
taken to be as long as those of the latest portion. -/
def portionFor (r : Reader) (count : Nat) : Nat :=
  max portionSize (max count (r.spent * count / r.gained))

/-- Takes in characters that were decoded. A carriage return at the end is held back
if more may follow. -/
def accept (r : Reader) (found : List Char) (final : Bool) : List Char × Bool :=
  let found := if r.held && (final || !found.isEmpty) then '\r' :: found else found
  let held := (r.held && found.isEmpty) || (!final && found.getLast? = some '\r')
  (unifyBreaks (if held then found.dropLast else found), held)

/-- Decodes a portion of bytes, of which there is none at the end. -/
def portion (r : Reader) (count : Nat) : Except Fault Reader :=
  let bytes := r.bytes.take (r.portionFor count)
  match decodeSome (r.left ++ bytes) bytes.isEmpty with
  | .error fault => .error (.decoding fault)
  | .ok (found, left) =>
    let (ready, held) := r.accept found bytes.isEmpty
    .ok { bytes := r.bytes.drop bytes.length, left, held, ready
          spent := bytes.length, gained := ready.length }

/-- Up to `count` characters, fewer only at the end. Portions are decoded as long as
characters are missing, `fuel` at most. -/
def take (r : Reader) (count : Nat) : Nat → Except Fault (List Char × Reader)
  | 0 => .ok ([], r)
  | fuel + 1 => do
    let found := r.ready.take count
    let r := { r with ready := r.ready.drop count }
    if found.length = count then return (found, r)
    let ended := r.bytes.isEmpty
    let r ← r.portion (count - found.length)
    if ended && r.ready.isEmpty then return (found, r)
    let (more, r) ← r.take (count - found.length) fuel
    return (found ++ more, r)

/-- Up to `count` characters, fewer only at the end. -/
def read (r : Reader) (count : Nat) : Except Fault (List Char × Reader) :=
  r.take count (r.bytes.length + 3)

end Reader

end Interaction.Text
