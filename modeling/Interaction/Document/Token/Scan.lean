import Interaction.Document.Page
import Interaction.Document.Token.Scalars
/-!
From text to tokens. Indentation opens and closes blocks, and a text turns out to be
a key only when the colon after it is met.
-/

namespace Interaction.Document

/-- A place where a key may have begun. -/
structure PossibleKey where
  slot : Nat
  /-- Whether it has to be a key, since it begins a line of a block. -/
  required : Bool
  index : Nat
  line : Nat
  column : Nat
  deriving Inhabited

/-- The tokens so far, and what is open. Each token has a slot, in which the tokens
that turn out to come before it are put in front of it. -/
structure Scanner where
  cursor : Cursor
  /-- What is met at the end of the text, if it is not the end of the document. -/
  beyond : Option Fault := none
  slots : Array (List Token) := #[]
  flow : Nat := 0
  /-- The column of the innermost block; outside of blocks it is -1. -/
  indent : Int := -1
  outer : List Int := []
  keyAllowed : Bool := true
  /-- Where keys may have begun, by the number of brackets around them. -/
  keys : List (Nat × PossibleKey) := []
  done : Bool := false
  deriving Inhabited

namespace Scanner

def emit (s : Scanner) (t : Token) : Scanner :=
  { s with slots := s.slots.push [t] }

/-- Puts a token in front of one that is there already. -/
def emitBefore (s : Scanner) (slot : Nat) (t : Token) : Scanner :=
  { s with slots := s.slots.modify slot (t :: ·) }

def skip (s : Scanner) (n : Nat) : Scanner :=
  { s with cursor := s.cursor.skip n }

/-- The next place that is neither a space nor in a comment nor a break. After a
break a key may begin, except in brackets. -/
def toNextToken (s : Scanner) : Nat → Scanner
  | 0 => s
  | fuel + 1 =>
    let c := s.cursor.skipSpaces.skipComment
    match c.takeBreak? with
    | none => { s with cursor := c }
    | some (_, after) =>
      toNextToken { s with cursor := after, keyAllowed := s.keyAllowed || s.flow = 0 } fuel

/-- Keys end on the line on which they begin, and have no more than 1024
characters. -/
def isStale (s : Scanner) (key : PossibleKey) : Bool :=
  key.line ≠ s.cursor.line || 1024 < s.cursor.index - key.index

/-- Gives up the places at which no key can have begun any more. -/
def dropStale (s : Scanner) : Except Fault Scanner :=
  if s.keys.any fun (_, key) => s.isStale key && key.required then refuse
  else .ok { s with keys := s.keys.filter fun (_, key) => !s.isStale key }

/-- Gives up the place at which a key may have begun inside the present brackets. -/
def dropKey (s : Scanner) : Except Fault Scanner :=
  match s.keys.lookup s.flow with
  | some key =>
    if key.required then refuse
    else .ok { s with keys := s.keys.filter fun entry => entry.1 ≠ s.flow }
  | none => .ok s

/-- Notes that a key may begin here. -/
def saveKey (s : Scanner) : Except Fault Scanner :=
  if s.keyAllowed then do
    let required := s.flow = 0 && s.indent = s.cursor.column
    let s ← s.dropKey
    let key : PossibleKey :=
      { slot := s.slots.size, required, index := s.cursor.index, line := s.cursor.line
        column := s.cursor.column }
    return { s with keys := (s.flow, key) :: s.keys }
  else .ok s

def closeBlocks (s : Scanner) (column : Int) : List Int → Scanner
  | [] => s
  | outer :: rest =>
    if s.flow = 0 && column < s.indent then
      closeBlocks ({ s with indent := outer, outer := rest }.emit .blockEnd) column rest
    else s

/-- Closes the blocks that are indented farther than `column`. -/
def unwind (s : Scanner) (column : Int) : Scanner :=
  s.closeBlocks column s.outer

/-- Whether a block at the column is a new one. -/
def opensBlock (s : Scanner) (column : Nat) : Bool :=
  s.flow = 0 && s.indent < column

def openBlock (s : Scanner) (column : Nat) : Scanner :=
  { s with outer := s.indent :: s.outer, indent := column }

def scanEnd (s : Scanner) : Except Fault Scanner := do
  let s ← (s.unwind (-1)).dropKey
  return { s with keyAllowed := false, keys := [], done := true }.emit .streamEnd

def scanDirective (s : Scanner) : Except Fault Scanner := do
  let s ← (s.unwind (-1)).dropKey
  let (token, cursor) ← directive s.cursor
  return { s with cursor, keyAllowed := false }.emit token

/-- The mark at the beginning or the end of a document. -/
def scanBoundary (s : Scanner) (t : Token) : Except Fault Scanner := do
  let s ← (s.unwind (-1)).dropKey
  return ({ s with keyAllowed := false }.skip 3).emit t

def scanOpening (s : Scanner) (t : Token) : Except Fault Scanner := do
  let s ← s.saveKey
  return ({ s with flow := s.flow + 1, keyAllowed := true }.skip 1).emit t

def scanClosing (s : Scanner) (t : Token) : Except Fault Scanner := do
  let s ← s.dropKey
  return ({ s with flow := s.flow - 1, keyAllowed := false }.skip 1).emit t

def scanComma (s : Scanner) : Except Fault Scanner := do
  let s ← { s with keyAllowed := true }.dropKey
  return (s.skip 1).emit .flowEntry

def scanDash (s : Scanner) : Except Fault Scanner := do
  if s.flow = 0 && !s.keyAllowed then refuse
  let column := s.cursor.column
  let s :=
    if s.opensBlock column then (s.openBlock column).emit .blockSequenceStart else s
  let s ← { s with keyAllowed := true }.dropKey
  return (s.skip 1).emit .blockEntry

def scanKey (s : Scanner) : Except Fault Scanner := do
  if s.flow = 0 && !s.keyAllowed then refuse
  let column := s.cursor.column
  let s :=
    if s.opensBlock column then (s.openBlock column).emit .blockMappingStart else s
  let s ← { s with keyAllowed := s.flow = 0 }.dropKey
  return (s.skip 1).emit .key

/-- The colon after a key. What stands before it on the line is the key, if a key
may have begun there. -/
def scanColon (s : Scanner) : Except Fault Scanner := do
  match s.keys.lookup s.flow with
  | some key =>
    let s := { s with keys := s.keys.filter fun entry => entry.1 ≠ s.flow }.emitBefore key.slot .key
    let s :=
      if s.opensBlock key.column then
        (s.openBlock key.column).emitBefore key.slot .blockMappingStart
      else s
    return ({ s with keyAllowed := false }.skip 1).emit .value
  | none =>
    if s.flow = 0 && !s.keyAllowed then refuse
    let column := s.cursor.column
    let s :=
      if s.opensBlock column then (s.openBlock column).emit .blockMappingStart else s
    let s ← { s with keyAllowed := s.flow = 0 }.dropKey
    return (s.skip 1).emit .value

/-- Something that may begin a key. -/
def scanWith (s : Scanner) (f : Cursor → Except Fault (Token × Cursor)) :
    Except Fault Scanner := do
  let s ← s.saveKey
  let (token, cursor) ← f s.cursor
  return { s with cursor, keyAllowed := false }.emit token

def scanName (s : Scanner) (f : String → Token) : Except Fault Scanner :=
  s.scanWith fun c => do
    let (name, after) ← anchorName c
    return (f name, after)

def scanQuoted (s : Scanner) (quote : Char) : Except Fault Scanner :=
  s.scanWith fun c => do
    let (text, after) ← quotedScalar quote c
    return (.scalar text false, after)

def scanBlock (s : Scanner) (folded : Bool) : Except Fault Scanner := do
  let s ← { s with keyAllowed := true }.dropKey
  let (text, cursor) ← blockScalar folded s.indent s.cursor
  return { s with cursor }.emit (.scalar text false)

def scanPlain (s : Scanner) : Except Fault Scanner := do
  let s ← s.saveKey
  let found := plainScalar (0 < s.flow) s.indent s.cursor
  return { s with cursor := found.cursor, keyAllowed := found.broken }.emit
    (.scalar (String.ofList found.text) true)

def beginsPlain (s : Scanner) (c : Char) : Bool :=
  !(endsWord (some c) || "-?:,[]\x7b\x7d#&*!|>'\"%@\x60".toList.contains c) ||
    (!endsWord (s.cursor.peek 1) &&
      (c = '-' || (s.flow = 0 && (c = '?' || c = ':'))))

def scanAt (s : Scanner) (c : Char) : Except Fault Scanner :=
  let alone := endsWord (s.cursor.peek 1)
  let atStart := s.cursor.column = 0
  if c = '%' && atStart then s.scanDirective
  else if atStart && s.cursor.atSeparator '-' then s.scanBoundary .documentStart
  else if atStart && s.cursor.atSeparator '.' then s.scanBoundary .documentEnd
  else if c = '[' then s.scanOpening .flowSequenceStart
  else if c = '{' then s.scanOpening .flowMappingStart
  else if c = ']' then s.scanClosing .flowSequenceEnd
  else if c = '}' then s.scanClosing .flowMappingEnd
  else if c = ',' then s.scanComma
  else if c = '-' && alone then s.scanDash
  else if c = '?' && (0 < s.flow || alone) then s.scanKey
  else if c = ':' && (0 < s.flow || alone) then s.scanColon
  else if c = '*' then s.scanName .alias
  else if c = '&' then s.scanName .anchor
  else if c = '!' then s.scanWith tagToken
  else if c = '|' && s.flow = 0 then s.scanBlock false
  else if c = '>' && s.flow = 0 then s.scanBlock true
  else if c = '\'' then s.scanQuoted '\''
  else if c = '"' then s.scanQuoted '"'
  else if s.beginsPlain c then s.scanPlain
  else refuse

/-- What is met at the end of the text, if the scanner has come there. -/
def checkEnd (s : Scanner) : Except Fault Unit :=
  match s.cursor.rest, s.beyond with
  | [], some fault => .error fault
  | _, _ => .ok ()

def scanNext (s : Scanner) : Except Fault Scanner := do
  let s := s.toNextToken (s.cursor.rest.length + 1)
  s.checkEnd
  let s ← s.dropStale
  let s := s.unwind s.cursor.column
  match s.cursor.head with
  | none => s.scanEnd
  | some c =>
    let s ← s.scanAt c
    s.checkEnd
    return s

/-- The tokens that can be handed on. As long as a key may have begun at one of them, it
has to be known first whether it did. -/
def known (s : Scanner) : List Token :=
  let possible := (s.keys.filter fun (_, key) => !s.isStale key).map fun (_, key) => key.slot
  match possible.min? with
  | some slot => (s.slots.toList.take slot).flatten
  | none => s.slots.toList.flatten

/-- The tokens up to the end, or up to a fault. -/
def scanAll (s : Scanner) : Nat → Scanner × Option Fault
  | 0 => (s, some .badDocument)
  | fuel + 1 =>
    match s.scanNext with
    | .error .cutOff => (s, some (s.beyond.getD .cutOff))
    | .error fault => (s, some fault)
    | .ok next => if next.done then (next, none) else scanAll next fuel

end Scanner

/-- The tokens of a text, and the fault after the last of them, if there is one. A
mark of the byte order in front is passed over. -/
def tokens (pages : Pages) : List Token × Option Fault :=
  let cursor : Cursor := { rest := pages.text }
  let cursor := if cursor.head = some (Char.ofNat 0xFEFF) then cursor.next else cursor
  let (s, fault) :=
    Scanner.scanAll { cursor, beyond := pages.beyond } (pages.text.length + 2)
  (s.known, fault)

end Interaction.Document
