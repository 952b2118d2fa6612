import Interaction.Document.Token.Names
/-!
Texts in a document: in blocks of lines, between quotes, and plain.
-/

namespace Interaction.Document

def startsBlank (c : Cursor) : Bool :=
  c.starts ' ' || c.starts '\t'

/-! ### Blocks of lines -/

/-- What the head of a block says: whether the breaks at its end are all kept or
all dropped, and how far it is indented. -/
structure BlockHead where
  keep : Option Bool := none
  increment : Option Nat := none
  deriving Inhabited

/-- A mark that says whether the breaks at the end are kept. -/
def chomping? (c : Cursor) : Option Bool × Cursor :=
  if c.starts '+' then (some true, c.next)
  else if c.starts '-' then (some false, c.next)
  else (none, c)

/-- A digit that says how far the block is indented. It is not zero. -/
def increment? (c : Cursor) : Except Fault (Option Nat × Cursor) :=
  match c.head with
  | some d =>
    if d = '0' then refuse
    else if d.isDigit then .ok (some (d.toNat - 48), c.next)
    else .ok (none, c)
  | none => .ok (none, c)

/-- The head of a block, with its two marks in either order. -/
def blockHead (c : Cursor) : Except Fault (BlockHead × Cursor) := do
  let (keep, c) := chomping? c
  let (increment, c) ← increment? c
  let (keep, c) := if keep.isNone && increment.isSome then chomping? c else (keep, c)
  if endsPart c.head then return (⟨keep, increment⟩, ← ignoredLine c) else refuse

/-- Skips spaces as long as the column is less than `indent`. -/
def skipIndent (indent : Nat) (c : Cursor) : Nat → Cursor
  | 0 => c
  | fuel + 1 =>
    if c.column < indent && c.starts ' ' then skipIndent indent c.next fuel else c

/-- The breaks of empty lines, and the place in the line after them. -/
def blockBreaks (indent : Nat) (c : Cursor) : Nat → List Char × Cursor
  | 0 => ([], c)
  | fuel + 1 =>
    let c := skipIndent indent c indent
    match c.takeBreak? with
    | none => ([], c)
    | some (b, after) =>
      let (breaks, c) := blockBreaks indent after fuel
      (b :: breaks, c)

/-- The breaks of empty lines, the farthest column that a space leads to, and the
place after them. -/
def leadingLines (c : Cursor) (farthest : Nat) : Nat → List Char × Nat × Cursor
  | 0 => ([], farthest, c)
  | fuel + 1 =>
    if c.starts ' ' then leadingLines c.next (max farthest (c.column + 1)) fuel
    else
      match c.takeBreak? with
      | none => ([], farthest, c)
      | some (b, after) =>
        let (breaks, farthest, c) := leadingLines after farthest fuel
        (b :: breaks, farthest, c)

/-- The lines of a block: their text, the last break, the breaks after it, and the
place after them. -/
structure BlockLines where
  text : List Char
  last : List Char
  breaks : List Char
  cursor : Cursor
  deriving Inhabited

def atBlockLine (indent : Nat) (c : Cursor) : Bool :=
  c.column = indent && c.head.isSome

/-- What stands between two lines. A single break between lines that are folded
becomes a space. -/
def lineJoint (folded : Bool) (line next : Cursor) (last breaks : List Char) : List Char :=
  if folded && last = ['\n'] && !startsBlank line && !startsBlank next then
    if breaks.isEmpty then [' '] else []
  else last

/-- The lines of a block, the first of which comes after `breaks`. -/
def blockLines (folded : Bool) (indent : Nat) (c : Cursor) (breaks : List Char) :
    Nat → BlockLines
  | 0 => ⟨[], [], breaks, c⟩
  | fuel + 1 =>
    if atBlockLine indent c then
      let (text, after) := c.span fun ch => !isBreak ch
      let (last, after) := match after.takeBreak? with
        | some (b, after) => ([b], after)
        | none => ([], after)
      let (more, after) := blockBreaks indent after (after.rest.length + 1)
      if atBlockLine indent after then
        let rest := blockLines folded indent after more fuel
        { rest with text := breaks ++ Text.spelled text ++ lineJoint folded c after last more ++ rest.text }
      else ⟨breaks ++ Text.spelled text, last, more, after⟩
    else ⟨[], [], breaks, c⟩

/-- A block of lines inside something that is indented by `outer`. -/
def blockScalar (folded : Bool) (outer : Int) (c : Cursor) :
    Except Fault (String × Cursor) := do
  let (head, c) ← blockHead c.next
  let least := (max 1 (outer + 1)).toNat
  let fuel := c.rest.length + 1
  let (indent, breaks, c) := match head.increment with
    | some n =>
      let indent := least + n - 1
      let (breaks, c) := blockBreaks indent c fuel
      (indent, breaks, c)
    | none =>
      let (breaks, farthest, c) := leadingLines c 0 fuel
      (max least farthest, breaks, c)
  let lines := blockLines folded indent c breaks fuel
  let ending := match head.keep with
    | some true => lines.last ++ lines.breaks
    | some false => []
    | none => lines.last
  return (String.ofList (lines.text ++ ending), lines.cursor)

/-! ### Texts between quotes -/

def escaped? (c : Char) : Option Char :=
  match c with
  | '0' => some (Char.ofNat 0)
  | 'a' => some (Char.ofNat 7)
  | 'b' => some (Char.ofNat 8)
  | 't' | '\t' => some '\t'
  | 'n' => some '\n'
  | 'v' => some (Char.ofNat 0xB)
  | 'f' => some (Char.ofNat 0xC)
  | 'r' => some '\r'
  | 'e' => some (Char.ofNat 0x1B)
  | ' ' => some ' '
  | '"' => some '"'
  | '\\' => some '\\'
  | '/' => some '/'
  | 'N' => some (Char.ofNat 0x85)
  | '_' => some (Char.ofNat 0xA0)
  | 'L' => some (Char.ofNat 0x2028)
  | 'P' => some (Char.ofNat 0x2029)
  | _ => none

def escapeWidth? (c : Char) : Option Nat :=
  match c with
  | 'x' => some 2
  | 'u' => some 4
  | 'U' => some 8
  | _ => none

/-- The number of an escape, from the digits that are there. -/
def escapeCode? (digits : List Char) (width : Nat) : Option Nat :=
  let digits := digits.take width
  if digits.length = width then hexNumber? digits else none

/-- What a text holds for the code point of an escape. Halves of pairs are not put
together. -/
def escapedCode (code : Nat) : Except Fault (List Char) :=
  if 0x7FFFFFFF < code then .error (.tooLarge "Python int too large to convert to C int")
  else if 0x10FFFF < code then .error (.badValue "chr() arg not in range(0x110000)")
  else .ok (Text.spell code)

/-- The breaks between lines, without the blanks around them. No document may end
here. -/
def quotedBreaks (c : Cursor) : Nat → Except Fault (List Char × Cursor)
  | 0 => .ok ([], c)
  | fuel + 1 =>
    if c.atBoundary then refuse
    else
      let (_, c) := c.span fun ch => ch = ' ' || ch = '\t'
      match c.takeBreak? with
      | none => .ok ([], c)
      | some (b, after) => do
        let (breaks, c) ← quotedBreaks after fuel
        return (b :: breaks, c)

/-- What a break and the breaks after it come to inside a text: a single line feed
becomes a space. -/
def foldBreaks (first : Char) (more : List Char) : List Char :=
  if first ≠ '\n' then first :: more
  else if more.isEmpty then [' ']
  else more

/-- Blanks inside a text, with the breaks among them folded. -/
def quotedBlanks (c : Cursor) : Except Fault (List Char × Cursor) :=
  let (blanks, after) := c.span fun ch => ch = ' ' || ch = '\t'
  match after.head, after.takeBreak? with
  | none, _ => cutShort
  | _, none => .ok (blanks, after)
  | _, some (b, after) => do
    let (more, after) ← quotedBreaks after (after.rest.length + 1)
    return (foldBreaks b more, after)

/-- What an escape stands for. The cursor is behind the backslash. -/
def quotedEscape (c : Cursor) : Except Fault (List Char × Cursor) :=
  match c.head with
  | none => cutShort
  | some letter =>
    match escaped? letter, escapeWidth? letter, c.takeBreak? with
    | some ch, _, _ => .ok ([ch], c.next)
    | none, some width, _ =>
      match escapeCode? (c.rest.drop 1) width with
      | none => refuse
      | some code => do return (← escapedCode code, c.skip (width + 1))
    | none, none, some (_, after) => quotedBreaks after (after.rest.length + 1)
    | none, none, none => refuse

/-- The text up to the closing quote, and the place after that. -/
def quotedFrom (quote : Char) (c : Cursor) : Nat → Except Fault (List Char × Cursor)
  | 0 => refuse
  | fuel + 1 =>
    match c.head with
    | none => cutShort
    | some ch => do
      if ch = quote && !(quote = '\'' && c.peek 1 = some '\'') then return ([], c.next)
      let (text, after) ←
        if ch = quote then pure ([quote], c.skip 2)
        else if ch = '\\' && quote = '"' then quotedEscape c.next
        else if endsWord (some ch) then quotedBlanks c
        else pure (Text.spell ch.toNat, c.next)
      let (rest, after) ← quotedFrom quote after fuel
      return (text ++ rest, after)

def quotedScalar (quote : Char) (c : Cursor) : Except Fault (String × Cursor) := do
  let (text, after) ← quotedFrom quote c.next (c.rest.length + 1)
  return (String.ofList text, after)

/-! ### Plain texts -/

/-- Whether a colon ends a plain text, by the character after it. -/
def colonEnds (inFlow : Bool) (next : Option Char) : Bool :=
  endsWord next || (inFlow && (match next with
    | some c => ",[]\x7b\x7d".toList.contains c
    | none => false))

/-- The characters of a plain text up to a blank or the end of the text. -/
def plainRun (inFlow : Bool) : List Char → List Char
  | [] => []
  | c :: rest =>
    if endsWord (some c) || (c = ':' && colonEnds inFlow rest.head?) ||
        (inFlow && ",?[]\x7b\x7d".toList.contains c) then []
    else c :: plainRun inFlow rest

/-- The breaks of empty lines after a line of a plain text. There are none if a
document ends among them. -/
def plainBreaks (c : Cursor) : Nat → Option (List Char) × Cursor
  | 0 => (some [], c)
  | fuel + 1 =>
    if c.starts ' ' then plainBreaks c.next fuel
    else
      match c.takeBreak? with
      | none => (some [], c)
      | some (b, after) =>
        if after.atBoundary then (none, after)
        else
          let (more, c) := plainBreaks after fuel
          (more.map (b :: ·), c)

/-- Blanks after a part of a plain text, with breaks folded. -/
structure PlainBlanks where
  text : List Char
  broken : Bool
  cursor : Cursor
  deriving Inhabited

def plainBlanks (c : Cursor) : PlainBlanks :=
  let (blanks, after) := c.span (· = ' ')
  match after.takeBreak? with
  | none => ⟨blanks, false, after⟩
  | some (b, after) =>
    if after.atBoundary then ⟨[], true, after⟩
    else
      match plainBreaks after (after.rest.length + 1) with
      | (none, after) => ⟨[], true, after⟩
      | (some more, after) => ⟨foldBreaks b more, true, after⟩

/-- A plain text, which may go on over several lines as long as they are indented.
`blanks` stand between what came before and what comes now. -/
def plainFrom (inFlow : Bool) (indent : Int) (c : Cursor) (blanks : PlainBlanks) :
    Nat → PlainBlanks
  | 0 => { blanks with text := [] }
  | fuel + 1 =>
    let run := plainRun inFlow c.rest
    if c.starts '#' || run.isEmpty then { blanks with text := [], cursor := c }
    else
      let after := plainBlanks (c.skip run.length)
      let ends := after.text.isEmpty || after.cursor.starts '#' ||
        (!inFlow && (after.cursor.column : Int) < indent)
      if ends then { after with text := blanks.text ++ Text.spelled run }
      else
        let rest := plainFrom inFlow indent after.cursor after fuel
        { rest with text := blanks.text ++ Text.spelled run ++ rest.text }

/-- A plain text inside something that is indented by `outer`. -/
def plainScalar (inFlow : Bool) (outer : Int) (c : Cursor) : PlainBlanks :=
  plainFrom inFlow (outer + 1) c ⟨[], false, c⟩ (c.rest.length + 1)

end Interaction.Document
