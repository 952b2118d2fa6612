import Interaction.Datum
import Interaction.Fault
import Interaction.Decimal.Rounding
/-!
Message templates: texts with places for arguments. A place begins with a percent
sign and ends with the letter of a conversion; between them stand the key of an
argument, flags, a width and a precision, none of which is needed.
-/

namespace Interaction.Log

inductive Size where
  | absent
  | exact (n : Nat)
  | given
  deriving DecidableEq, Inhabited

/-- What is to be written in the place of an argument. -/
structure Placeholder where
  key : Option String := none
  /-- Blanks are added on the right. -/
  left : Bool := false
  /-- A number that is not negative gets a plus sign. -/
  plus : Bool := false
  /-- A number that is not negative gets a blank in the place of a sign. -/
  blank : Bool := false
  /-- The base is shown, and points and zeros are kept. -/
  full : Bool := false
  /-- Zeros fill a number up to the width. -/
  zero : Bool := false
  width : Size := .absent
  precision : Size := .absent
  deriving Inhabited

/-- The letter that says how an argument is written, or the code point in its place. -/
structure Conversion where
  letter : Char
  point : Nat
  position : Nat
  deriving Inhabited

inductive Piece where
  | text (cs : List Char)
  /-- A place for an argument. It has no conversion if the template ends too early. -/
  | place (p : Placeholder) (conversion : Option Conversion)
  | openKey
  deriving Inhabited

namespace Piece

/-- The characters of a key up to its closing bracket, where `inner` brackets are
open inside it. -/
def key? (inner : Nat) : List Char → Option (List Char × List Char)
  | [] => none
  | ')' :: rest =>
    match inner with
    | 0 => some ([], rest)
    | inner + 1 => (key? inner rest).map fun (key, rest) => (')' :: key, rest)
  | '(' :: rest => (key? (inner + 1) rest).map fun (key, rest) => ('(' :: key, rest)
  | c :: rest => (key? inner rest).map fun (key, rest) => (c :: key, rest)

def flags (p : Placeholder) : List Char → Placeholder × List Char
  | '-' :: rest => flags { p with left := true } rest
  | '+' :: rest => flags { p with plus := true } rest
  | ' ' :: rest => flags { p with blank := true } rest
  | '#' :: rest => flags { p with full := true } rest
  | '0' :: rest => flags { p with zero := true } rest
  | cs => (p, cs)

def size (cs : List Char) : Size × List Char :=
  match cs with
  | '*' :: rest => (.given, rest)
  | _ =>
    match cs.span Char.isDigit with
    | ([], rest) => (.absent, rest)
    | (digits, rest) =>
      (.exact (digits.foldl (fun n d => 10 * n + (d.toNat - 48)) 0), rest)

def precision : List Char → Size × List Char
  | '.' :: rest =>
    match size rest with
    | (.absent, rest) => (.exact 0, rest)
    | found => found
  | cs => (.absent, cs)

def dropLength : List Char → List Char
  | 'h' :: rest | 'l' :: rest | 'L' :: rest => rest
  | cs => cs

/-- A place after its percent sign and key, and the rest of a template with `total`
code points. -/
def placeAfter (total : Nat) (key : Option String) (cs : List Char) : Piece × List Char :=
  let (p, cs) := flags { key } cs
  let (width, cs) := size cs
  let (precision, cs) := precision cs
  let p := { p with width, precision }
  match dropLength cs with
  | [] => (.place p none, [])
  | c :: rest =>
    let left := Text.points (c :: rest)
    (.place p (some ⟨c, left.headD 0, total - left.length⟩), rest)

def begin (total : Nat) : List Char → Piece × List Char
  | '%' :: rest => (.text ['%'], rest)
  | '(' :: rest =>
    match key? 0 rest with
    | some (key, rest) => placeAfter total (some (String.ofList key)) rest
    | none => (.openKey, [])
  | cs => placeAfter total none cs

/-- The pieces of a template with `total` code points. -/
def parse (total : Nat) : Nat → List Char → List Piece
  | 0, _ | _, [] => []
  | fuel + 1, '%' :: rest =>
    let (piece, rest) := begin total rest
    piece :: parse total fuel rest
  | fuel + 1, cs =>
    let (plain, rest) := cs.span (· ≠ '%')
    .text plain :: parse total fuel rest

end Piece

/-- The arguments that are still to be written. -/
structure Arguments where
  left : List Datum
  entries : Option (List (Datum × Datum)) := none
  deriving Inhabited

namespace Arguments

/-- The arguments of a message. A single mapping with entries stands for its
entries. -/
def ofList : List Datum → Arguments
  | [.map (entry :: rest)] =>
    { left := [.map (entry :: rest)], entries := some (entry :: rest) }
  | items => { left := items }

def next (a : Arguments) : Except Fault (Datum × Arguments) :=
  match a.left with
  | d :: rest => .ok (d, { a with left := rest })
  | [] => .error (.wrongKind "not enough arguments for format string")

/-- Makes the entry under a key the only argument. -/
def select (a : Arguments) : Option String → Except Fault Arguments
  | none => .ok a
  | some key =>
    match a.entries with
    | none => .error (.wrongKind "format requires a mapping")
    | some entries =>
      match entries.find? fun entry => entry.1.isText key with
      | some entry => .ok { a with left := [entry.2] }
      | none => .error (.unknownName key)

/-- A size, where an argument may say it. -/
def size (a : Arguments) : Size → Except Fault (Option Int × Arguments)
  | .absent => .ok (none, a)
  | .exact n => .ok (some n, a)
  | .given => do
    let (d, a) ← a.next
    match d with
    | .int n => return (some n, a)
    | .bool b => return (some (if b then 1 else 0), a)
    | _ => throw (.wrongKind "* wants int")

end Arguments

structure Layout where
  left : Bool
  plus : Bool
  blank : Bool
  full : Bool
  zero : Bool
  width : Option Nat
  precision : Option Nat

namespace Layout

/-- Characters up to a width, on the side that is not asked for. -/
def pad (l : Layout) (fill : Char) (cs : List Char) : List Char :=
  let missing := l.width.getD 0 - Text.size cs
  if l.left then cs ++ List.replicate missing ' ' else List.replicate missing fill ++ cs

def text (l : Layout) (s : String) : List Char :=
  l.pad ' ' (match l.precision with
    | some n => ((Text.points s.toList).take n).flatMap Text.spell
    | none => s.toList)

/-- The sign of a number that is not negative. -/
def positive (l : Layout) : List Char :=
  if l.plus then ['+'] else if l.blank then [' '] else []

/-- A number: its sign, the mark of its base and its digits. Zeros stand between the
sign and the digits. -/
def number (l : Layout) (negative : Bool) (mark digits : List Char) : List Char :=
  let lead := (if negative then ['-'] else l.positive) ++ mark
  if l.zero && !l.left then
    lead ++ List.replicate (l.width.getD 0 - lead.length - digits.length) '0' ++ digits
  else l.pad ' ' (lead ++ digits)

def integer (l : Layout) (conversion : Char) (base : Nat) (n : Int) : List Char :=
  let digits := Nat.toDigits base n.natAbs
  let digits := List.replicate (l.precision.getD 0 - digits.length) '0' ++ digits
  let mark := if l.full && base ≠ 10 then ['0', conversion] else []
  l.number (n < 0) mark
    (if conversion = 'X' then digits.map Char.toUpper else digits)

def decimal (l : Layout) (style : Decimal.Style) (upper : Bool) (x : Float) : List Char :=
  let text := style.write x (l.precision.getD 6) l.full
  let text := if upper then text.map Char.toUpper else text
  match text with
  | '-' :: digits => l.number true [] digits
  | digits => l.number false [] digits

end Layout

/-- The whole number that a number is cut down to. -/
def toInteger (conversion : Char) : Datum → Except Fault Int
  | .int n => .ok n
  | .bool b => .ok (if b then 1 else 0)
  | .scalar (.undefined _) => .error (.badValue "cannot convert float NaN to integer")
  | .scalar (.float x) =>
    if x.isNaN then .error (.badValue "cannot convert float NaN to integer")
    else if x.isInf then .error (.tooLarge "cannot convert float infinity to integer")
    else .ok (if x < 0.0 then -(Decimal.wholePart x : Int) else Decimal.wholePart x)
  | d => .error (.wrongKind ("%" ++ String.singleton conversion ++
      " format: a real number is required, not " ++ d.kind))

def asInteger (conversion : Char) : Datum → Except Fault Int
  | .int n => .ok n
  | .bool b => .ok (if b then 1 else 0)
  | d => .error (.wrongKind ("%" ++ String.singleton conversion ++
      " format: an integer is required, not " ++ d.kind))

def toNumber : Datum → Except Fault Float
  | .scalar (.float x) => .ok x
  | .scalar (.undefined _) => .ok Decimal.undefined
  | .bool b => .ok (if b then 1.0 else 0.0)
  | .int n =>
    let x := Decimal.toFloat (n < 0) n.natAbs 0
    if x.isInf then .error (.tooLarge "int too large to convert to float") else .ok x
  | d => .error (.wrongKind ("must be real number, not " ++ d.kind))

/-- The code point that a value consists of or is the number of. -/
def toPoint : Datum → Except Fault Nat
  | .text s =>
    match Text.points s.toList with
    | [n] => .ok n
    | _ => .error (.wrongKind "%c requires int or char")
  | .int n =>
    if 0 ≤ n && n < 0x110000 then .ok n.toNat
    else .error (.tooLarge "%c arg not in range(0x110000)")
  | .bool b => .ok (if b then 1 else 0)
  | _ => .error (.wrongKind "%c requires int or char")

def convert (l : Layout) (c : Conversion) (d : Datum) : Except Fault (List Char) :=
  match c.letter with
  | 's' => .ok (l.text d.plain)
  | 'r' => .ok (l.text d.shown)
  | 'a' => .ok (l.text (Text.escapedAscii d.shown))
  | 'd' | 'i' | 'u' => (toInteger c.letter d).map (l.integer c.letter 10)
  | 'o' => (asInteger c.letter d).map (l.integer c.letter 8)
  | 'x' | 'X' => (asInteger c.letter d).map (l.integer c.letter 16)
  | 'e' | 'E' => (toNumber d).map (l.decimal .scientific (c.letter = 'E'))
  | 'f' | 'F' => (toNumber d).map (l.decimal .fixed (c.letter = 'F'))
  | 'g' | 'G' => (toNumber d).map (l.decimal .general (c.letter = 'G'))
  | 'c' => (toPoint d).map fun n => l.pad ' ' (Text.spell n)
  | _ =>
    let known := 31 ≤ c.point && c.point < 0x7F
    .error (.badValue ("unsupported format character '" ++
      String.singleton (if known then c.letter else '?') ++ "' (0x" ++
      String.ofList (Text.hex 1 c.point) ++ ") at index " ++ toString c.position))

def maxWidth : Nat := 0x7FFFFFFFFFFFFFFF

def maxPrecision : Nat := 0x7FFFFFFF

/-- Refuses a size that is too large, by what it was said by. There is one more negative
size than there are positive ones. -/
def checkSize (size : Size) (n : Option Int) (limit : Nat) (name : String) :
    Except Fault Unit :=
  let n := n.getD 0
  if limit < n || n < -1 - (limit : Int) then
    .error (if size = .given then .tooLarge (name ++ " too large")
      else .badValue (name ++ " too big"))
  else .ok ()

/-- The width that a size stands for. The negative one without a positive counterpart is
none. -/
def widthOf (n : Int) : Nat :=
  if maxWidth < n.natAbs then 0 else n.natAbs

def fillPlace (p : Placeholder) (conversion : Option Conversion) (a : Arguments) :
    Except Fault (List Char × Arguments) := do
  let a ← a.select p.key
  let (width, a) ← a.size p.width
  checkSize p.width width maxWidth "width"
  let (precision, a) ← a.size p.precision
  checkSize p.precision precision maxPrecision "precision"
  match conversion with
  | none => throw (.badValue "incomplete format")
  | some c =>
    let (d, a) ← a.next
    let layout : Layout :=
      { left := p.left || (width.getD 0) < 0, plus := p.plus, blank := p.blank, full := p.full
        zero := p.zero, width := width.map widthOf, precision := precision.map Int.toNat }
    return (← convert layout c d, a)

/-- Fills the places one after the other. All arguments have to be used, apart from
entries. -/
def fill (a : Arguments) : List Piece → Except Fault (List Char)
  | [] =>
    if a.left.isEmpty || a.entries.isSome then .ok []
    else .error (.wrongKind "not all arguments converted during string formatting")
  | .text cs :: rest => do return cs ++ (← fill a rest)
  | .openKey :: _ =>
    .error (if a.entries.isSome then .badValue "incomplete format key"
      else .wrongKind "format requires a mapping")
  | .place p conversion :: rest => do
    let (cs, a) ← fillPlace p conversion a
    return cs ++ (← fill a rest)

/-- A message with its arguments in their places. Without arguments it is left as it
is. -/
def fillTemplate (template : String) (arguments : List Datum) : Except Fault String :=
  match arguments with
  | [] => .ok template
  | _ => do
    let cs := template.toList
    return String.ofList (← fill (.ofList arguments) (Piece.parse (Text.size cs) (cs.length + 1) cs))

end Interaction.Log
