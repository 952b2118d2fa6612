import Interaction.Fault
/-!
A place in a text, and the characters that end lines and words in documents.
-/

namespace Interaction.Document

def isBreak (c : Char) : Bool :=
  c = '\n' || c.toNat = 0x85 || c.toNat = 0x2028 || c.toNat = 0x2029

/-- A break, or the end of the text. -/
def endsLine : Option Char → Bool
  | none => true
  | some c => isBreak c

/-- A space, a break, or the end of the text. -/
def endsPart : Option Char → Bool
  | none => true
  | some c => c = ' ' || isBreak c

/-- A space, a tab, a break, or the end of the text. -/
def endsWord : Option Char → Bool
  | none => true
  | some c => c = ' ' || c = '\t' || isBreak c

/-- Characters that a document may hold. -/
def isAllowed (c : Char) : Bool :=
  let n := c.toNat
  n = 0x9 || n = 0xA || n = 0xD || (0x20 ≤ n && n ≤ 0x7E) || n = 0x85 ||
    (0xA0 ≤ n && n ≤ 0xD7FF) || (0xE000 ≤ n && n ≤ 0xFFFD) || 0x10000 ≤ n

def isNameChar (c : Char) : Bool :=
  c.isAlphanum || c = '-' || c = '_'

/-- What is left of a text, and where it begins. -/
structure Cursor where
  rest : List Char
  index : Nat := 0
  line : Nat := 0
  column : Nat := 0
  deriving Inhabited

namespace Cursor

/-- The character `k` places on. -/
def peek (c : Cursor) (k : Nat) : Option Char :=
  c.rest[k]?

def head (c : Cursor) : Option Char :=
  c.rest.head?

def starts (c : Cursor) (ch : Char) : Bool :=
  c.head = some ch

/-- One character on. The mark of the byte order takes up no column. -/
def next (c : Cursor) : Cursor :=
  match c.rest with
  | [] => c
  | ch :: rest =>
    if isBreak ch then ⟨rest, c.index + 1, c.line + 1, 0⟩
    else if ch.toNat = 0xFEFF then ⟨rest, c.index + 1, c.line, c.column⟩
    else ⟨rest, c.index + 1, c.line, c.column + 1⟩

def skip (c : Cursor) : Nat → Cursor
  | 0 => c
  | n + 1 => c.next.skip n

/-- The characters up to the first that does not pass the test, and the place
after them. -/
def span (c : Cursor) (p : Char → Bool) : List Char × Cursor :=
  let found := c.rest.takeWhile p
  (found, c.skip found.length)

def skipSpaces (c : Cursor) : Cursor :=
  (c.span (· = ' ')).2

def skipLine (c : Cursor) : Cursor :=
  (c.span fun ch => !isBreak ch).2

def skipComment (c : Cursor) : Cursor :=
  if c.starts '#' then c.skipLine else c

/-- A break and the place after it. All breaks but the separators of lines and
paragraphs count as line feeds. -/
def takeBreak? (c : Cursor) : Option (Char × Cursor) :=
  match c.head with
  | some ch =>
    if isBreak ch then
      some (if ch.toNat = 0x2028 || ch.toNat = 0x2029 then ch else '\n', c.next)
    else none
  | none => none

def skipBreak (c : Cursor) : Cursor :=
  match c.takeBreak? with
  | some (_, after) => after
  | none => c

/-- Whether one of the marks that separate documents stands here. -/
def atSeparator (c : Cursor) (mark : Char) : Bool :=
  c.peek 0 = some mark && c.peek 1 = some mark && c.peek 2 = some mark && endsWord (c.peek 3)

def atBoundary (c : Cursor) : Bool :=
  c.atSeparator '-' || c.atSeparator '.'

end Cursor

end Interaction.Document
