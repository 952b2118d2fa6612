import Interaction.Log.Data
import Interaction.Decimal.Reading
import Interaction.Text.Split
/-!
Reading lines of the log.
-/

namespace Interaction.Log

def skipBlanks (cs : List Char) : List Char :=
  cs.dropWhile fun c => c = ' ' || c = '\t' || c = '\n' || c = '\r'

/-- The unit of sixteen bits that a text begins with, and the rest. -/
def unit? : List Char → Option (Nat × List Char)
  | a :: b :: c :: d :: rest => do
    let unit := ((← Text.hexValue? a) * 16 + (← Text.hexValue? b)) * 256 +
      ((← Text.hexValue? c) * 16 + (← Text.hexValue? d))
    return (unit, rest)
  | _ => none

/-- The code point that a unit makes with the next one, and the rest. -/
def pairPoint? (high : Nat) : List Char → Option (Nat × List Char)
  | '\\' :: 'u' :: rest => do
    let (low, rest) ← unit? rest
    return (← Text.pair? high low, rest)
  | _ => none

/-- The code point of one unit or of two, and the rest. -/
def unitPoint? (cs : List Char) : Option (Nat × List Char) := do
  let (n, rest) ← unit? cs
  return (pairPoint? n rest).getD (n, rest)

/-- The code point that an escape stands for, after its backslash, and the rest. -/
def escaped? : List Char → Option (Nat × List Char)
  | '/' :: rest => some ('/'.toNat, rest)
  | 'u' :: rest => unitPoint? rest
  | l :: rest => (letters.lookup l).map fun c => (c.toNat, rest)
  | [] => none

/-- A text after its first quote, and the rest. `found` are its characters so far, from
the last to the first. -/
def unquoteFrom? (found : List Char) : Nat → List Char → Option (String × List Char)
  | 0, _ | _, [] => none
  | _, '"' :: rest => some (String.ofList found.reverse, rest)
  | fuel + 1, '\\' :: rest =>
    match escaped? rest with
    | some (n, rest) => unquoteFrom? ((Text.spell n).reverse ++ found) fuel rest
    | none => none
  | fuel + 1, c :: rest =>
    if c.toNat < 0x20 then none else unquoteFrom? (c :: found) fuel rest

def unquote? (fuel : Nat) (cs : List Char) : Option (String × List Char) :=
  unquoteFrom? [] fuel cs

def after? (word : String) (cs : List Char) : Option (List Char) :=
  if word.toList.isPrefixOf cs then some (cs.drop word.length) else none

/-- The digits before a point, and the rest. No digit comes after a zero in front. -/
def wholeDigits? : List Char → Option (List Char × List Char)
  | '0' :: rest => some (['0'], rest)
  | cs =>
    match cs.span Char.isDigit with
    | ([], _) => none
    | found => some found

/-- A point and the digits after it, and the rest. There may be none. -/
def fraction (cs : List Char) : List Char × List Char :=
  match cs with
  | '.' :: after =>
    match after.span Char.isDigit with
    | ([], _) => ([], cs)
    | (digits, rest) => ('.' :: digits, rest)
  | _ => ([], cs)

/-- The letter of an exponent, its sign and its digits, and the rest. There may be
none. -/
def exponent (cs : List Char) : List Char × List Char :=
  match cs with
  | c :: after =>
    let (sign, after) := match after with
      | '-' :: after => (['-'], after)
      | '+' :: after => (['+'], after)
      | _ => ([], after)
    match after.span Char.isDigit with
    | ([], _) => ([], cs)
    | (digits, rest) => if c = 'e' || c = 'E' then (c :: sign ++ digits, rest) else ([], cs)
  | [] => ([], cs)

/-- A number, and the rest. One with a point or an exponent is no whole number. -/
def number? (cs : List Char) : Option (Data × List Char) := do
  let (sign, rest) := match cs with
    | '-' :: rest => (['-'], rest)
    | _ => ([], cs)
  let (whole, rest) ← wholeDigits? rest
  let (part, rest) := fraction rest
  let (power, rest) := exponent rest
  if part.isEmpty && power.isEmpty then
    let n : Int := whole.foldl (fun n d => 10 * n + (d.toNat - 48)) (0 : Nat)
    return (.int (if sign.isEmpty then n else -n), rest)
  else return (.float (← Decimal.read? (sign ++ whole ++ part ++ power)), rest)

def words : List (String × Data) :=
  [("null", .null), ("true", .bool true), ("false", .bool false),
   ("NaN", .float Decimal.undefined),
   ("Infinity", .float (Float.ofBits 0x7FF0000000000000)),
   ("-Infinity", .float (Float.ofBits 0xFFF0000000000000))]

def plain? (cs : List Char) : Option (Data × List Char) :=
  match words.findSome? fun (word, data) => (after? word cs).map fun rest => (data, rest) with
  | some found => some found
  | none => number? cs

/-- Gives a field its value. One that is there already keeps its place. -/
def putField (name : String) (value : Data) : List (String × Data) → List (String × Data)
  | [] => [(name, value)]
  | field :: rest =>
    if field.1 = name then (name, value) :: rest else field :: putField name value rest

/-- An object of fields, of which the last one of a name counts. -/
def objectOf (fields : List (String × Data)) : Data :=
  .object (fields.foldl (fun found (name, value) => putField name value found) [])

mutual

def data? (fuel : Nat) (cs : List Char) : Option (Data × List Char) :=
  match fuel, skipBlanks cs with
  | 0, _ => none
  | fuel + 1, '"' :: rest => do
    let (text, rest) ← unquote? fuel rest
    return (.text text, rest)
  | fuel + 1, '[' :: rest =>
    match skipBlanks rest with
    | ']' :: rest => some (.list [], rest)
    | _ => do
      let (items, rest) ← items? fuel rest
      return (.list items, rest)
  | fuel + 1, '\x7b' :: rest =>
    match skipBlanks rest with
    | '\x7d' :: rest => some (.object [], rest)
    | _ => do
      let (fields, rest) ← fields? fuel rest
      return (objectOf fields, rest)
  | _ + 1, cs => plain? cs
termination_by structural fuel

/-- Items up to the closing bracket, and the rest of the text. -/
def items? (fuel : Nat) (cs : List Char) : Option (List Data × List Char) :=
  match fuel with
  | 0 => none
  | fuel + 1 => do
    let (item, rest) ← data? fuel cs
    match skipBlanks rest with
    | ',' :: rest => do
      let (items, rest) ← items? fuel rest
      return (item :: items, rest)
    | ']' :: rest => return ([item], rest)
    | _ => none
termination_by structural fuel

/-- Fields up to the closing brace, and the rest of the text. -/
def fields? (fuel : Nat) (cs : List Char) : Option (List (String × Data) × List Char) :=
  match fuel, skipBlanks cs with
  | fuel + 1, '"' :: rest => do
    let (name, rest) ← unquote? fuel rest
    match skipBlanks rest with
    | ':' :: rest => do
      let (value, rest) ← data? fuel rest
      match skipBlanks rest with
      | ',' :: rest => do
        let (fields, rest) ← fields? fuel rest
        return ((name, value) :: fields, rest)
      | '\x7d' :: rest => return ([(name, value)], rest)
      | _ => none
    | _ => none
  | _, _ => none
termination_by structural fuel

end

/-- The lines of a log that hold something. -/
def entryLines (s : String) : List (List Char) :=
  let (first, more) := Text.split '\n' (Text.unifyBreaks s.toList)
  (first :: more).filter fun line => !(skipBlanks line).isEmpty

def Data.read? (line : List Char) : Option Data := do
  let (data, rest) ← data? (line.length + 1) line
  if (skipBlanks rest).isEmpty then some data else none

end Interaction.Log
