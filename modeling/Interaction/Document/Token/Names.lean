import Interaction.Document.Token.Basic
import Interaction.Text.Numeral
import Interaction.Text.Quoted
/-!
Names, tags and directives.
-/

namespace Interaction.Document

/-- Whether an anchor or alias may end before this character. -/
def endsName (ch : Option Char) : Bool :=
  endsWord ch || (match ch with
    | some c => "?:,]\x7d%@\x60".toList.contains c
    | none => false)

def anchorName (c : Cursor) : Except Fault (String × Cursor) :=
  let (name, after) := c.next.span isNameChar
  if name.isEmpty || !endsName after.head then refuse
  else .ok (String.ofList name, after)

def isUriChar (c : Char) : Bool :=
  c.isAlphanum || "-;/?:@&=+$,_.!~*'()[]".toList.contains c

/-- The number that characters denote in base 16. -/
def hexNumber? (cs : List Char) : Option Nat :=
  cs.foldl (fun n c => do return 16 * (← n) + (← Text.hexValue? c)) (some 0)

/-- Escaped bytes, up to the first character that begins no escape. -/
def escapedBytes (c : Cursor) : Nat → Except Fault (List UInt8 × Cursor)
  | 0 => .ok ([], c)
  | fuel + 1 =>
    if c.starts '%' then
      let digits := (c.rest.drop 1).take 2
      match hexNumber? digits with
      | some n =>
        if digits.length = 2 then do
          let (rest, after) ← escapedBytes (c.skip 3) fuel
          return (UInt8.ofNat n :: rest, after)
        else refuse
      | none => refuse
    else .ok ([], c)

def uriFrom (c : Cursor) : Nat → Except Fault (List Char × Cursor)
  | 0 => .ok ([], c)
  | fuel + 1 =>
    let (text, after) := c.span isUriChar
    if after.starts '%' then do
      let (bytes, after) ← escapedBytes after after.rest.length
      match String.fromUTF8? ⟨bytes.toArray⟩ with
      | none => refuse
      | some escaped =>
        let (rest, after) ← uriFrom after fuel
        return (text ++ escaped.toList ++ rest, after)
    else .ok (text, after)

def uri (c : Cursor) : Except Fault (String × Cursor) := do
  let (text, after) ← uriFrom c (c.rest.length + 1)
  if text.isEmpty then refuse else return (String.ofList text, after)

def tagHandle (c : Cursor) : Except Fault (String × Cursor) :=
  if !c.starts '!' then refuse
  else if c.peek 1 = some ' ' then .ok ("!", c.next)
  else
    let (name, after) := c.next.span isNameChar
    if after.starts '!' then .ok (String.ofList ('!' :: name ++ ['!']), after.next)
    else refuse

/-- Whether a second exclamation mark stands before the end of the word. -/
def hasHandle : List Char → Bool
  | [] => false
  | c :: rest => if endsPart (some c) then false else c = '!' || hasHandle rest

def tagToken (c : Cursor) : Except Fault (Token × Cursor) := do
  let (token, after) ←
    if c.peek 1 = some '<' then do
      let (suffix, after) ← uri (c.skip 2)
      if after.starts '>' then pure (Token.tag none suffix, after.next) else refuse
    else if endsWord (c.peek 1) then pure (Token.tag none "!", c.next)
    else if hasHandle (c.rest.drop 1) then do
      let (handle, after) ← tagHandle c
      let (suffix, after) ← uri after
      pure (Token.tag (some handle) suffix, after)
    else do
      let (suffix, after) ← uri c.next
      pure (Token.tag (some "!") suffix, after)
  if endsPart after.head then return (token, after) else refuse

/-- The rest of a line that holds nothing but a comment. -/
def ignoredLine (c : Cursor) : Except Fault Cursor :=
  let c := c.skipSpaces.skipComment
  if endsLine c.head then .ok c.skipBreak else refuse

def digitsNumber (c : Cursor) : Except Fault (Nat × Cursor) :=
  let (digits, after) := c.span Char.isDigit
  if digits.isEmpty then refuse
  else if Text.maxDigits < digits.length then .error (.longNumeral digits.length)
  else .ok (digits.foldl (fun n d => 10 * n + (d.toNat - 48)) 0, after)

def versionValue (c : Cursor) : Except Fault (Token × Cursor) := do
  let (major, after) ← digitsNumber c.skipSpaces
  if !after.starts '.' then refuse
  let (_, after) ← digitsNumber after.next
  if endsPart after.head then return (.version major, after) else refuse

/-- The handle that a directive gives, and what it stands for. -/
def handleValue (c : Cursor) : Except Fault (Token × Cursor) := do
  let (handle, after) ← tagHandle c.skipSpaces
  if !after.starts ' ' then refuse
  let (start, after) ← uri after.skipSpaces
  if endsPart after.head then return (.tagHandle handle start, after) else refuse

def directive (c : Cursor) : Except Fault (Token × Cursor) := do
  let (name, after) := c.next.span isNameChar
  if name.isEmpty || !endsPart after.head then refuse
  let (token, after) ←
    if name = "YAML".toList then versionValue after
    else if name = "TAG".toList then handleValue after
    else pure (Token.otherDirective, after.skipLine)
  return (token, ← ignoredLine after)

end Interaction.Document
