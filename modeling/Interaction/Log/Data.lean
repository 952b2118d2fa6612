import Interaction.Datum
import Interaction.Fault
/-!
What stands in a line of the log, and its written form: one line of printable
characters of ASCII.
-/

namespace Interaction.Log

inductive Data where
  | null
  | bool (b : Bool)
  | int (n : Int)
  | float (x : Float)
  | text (s : String)
  | list (items : List Data)
  | object (fields : List (String × Data))
  deriving Inhabited

/-- Numbers in log lines are written as in messages, apart from those that are not
finite. -/
def numberFormat : Decimal.Format :=
  { Decimal.Format.plain with infinity := "Infinity", undefined := "NaN" }

def unitEscape (n : Nat) : List Char :=
  '\\' :: 'u' :: Text.hex 4 n

/-- A code point outside ASCII, by its one or two units. -/
def unitsOf (n : Nat) : List Char :=
  if n < 0x10000 then unitEscape n
  else
    let high := 0xD800 + (n - 0x10000) / 0x400
    let low := 0xDC00 + (n - 0x10000) % 0x400
    unitEscape high ++ unitEscape low

/-- The letters after a backslash that stand for other characters. -/
def letters : List (Char × Char) :=
  [('"', '"'), ('\\', '\\'), ('n', '\n'), ('r', '\r'), ('t', '\t'), ('f', '\x0c'), ('b', '\x08')]

/-- A code point inside quotes. -/
def escape (n : Nat) : List Char :=
  match letters.find? fun letter => letter.2.toNat = n with
  | some letter => ['\\', letter.1]
  | none => if 0x20 ≤ n && n < 0x7F then [Char.ofNat n] else unitsOf n

def quote (s : String) : List Char :=
  '"' :: (Text.points s.toList).flatMap escape ++ ['"']

namespace Data

/-- Parts with a comma and a blank between them. -/
def joined : List (List Char) → List Char
  | [] => []
  | [part] => part
  | part :: rest => part ++ ',' :: ' ' :: joined rest

mutual

def write : Data → List Char
  | .null => "null".toList
  | .bool b => (if b then "true" else "false").toList
  | .int n => (toString n).toList
  | .float x => (numberFormat.write x).toList
  | .text s => quote s
  | .list items => '[' :: joined (writeItems items) ++ [']']
  | .object fields => '\x7b' :: joined (writeFields fields) ++ ['\x7d']

def writeItems : List Data → List (List Char)
  | [] => []
  | item :: rest => item.write :: writeItems rest

def writeFields : List (String × Data) → List (List Char)
  | [] => []
  | (name, value) :: rest => (quote name ++ ':' :: ' ' :: value.write) :: writeFields rest

end

/-- The text under which a key is written. -/
def keyText : Datum → Except Fault String
  | .text s => .ok s
  | .scalar (.float x) => .ok (numberFormat.write x)
  | .scalar (.undefined _) => .ok numberFormat.undefined
  | .bool b => .ok (if b then "true" else "false")
  | .null => .ok "null"
  | .int n => .ok (toString n)
  | d => .error (.wrongKind ("keys must be str, int, float, bool or None, not " ++ d.kind))

mutual

/-- The data that a value is logged as. What has no form of its own is logged as it
stands in messages. -/
def ofDatum : Datum → Except Fault Data
  | .null => .ok .null
  | .bool b => .ok (.bool b)
  | .int n => .ok (.int n)
  | .scalar (.float x) => .ok (.float x)
  | .scalar (.undefined _) => .ok (.float Decimal.undefined)
  | .text s => .ok (.text s)
  | .scalar s => .ok (.text (Datum.plain (.scalar s)))
  | .tuple items => do return .list (← ofItems items)
  | .list items => do return .list (← ofItems items)
  | .map entries => do return .object (← ofEntries entries)
  | .set items => .ok (.text (Datum.plain (.set items)))
  | .again _ => .error (.badValue "Circular reference detected")

def ofItems : List Datum → Except Fault (List Data)
  | [] => .ok []
  | item :: rest => do
    let first ← ofDatum item
    return first :: (← ofItems rest)

def ofEntries : List (Datum × Datum) → Except Fault (List (String × Data))
  | [] => .ok []
  | (key, value) :: rest => do
    let name ← keyText key
    let first ← ofDatum value
    return (name, first) :: (← ofEntries rest)

end

end Data

end Interaction.Log
