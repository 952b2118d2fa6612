import Interaction.Decimal.Shortest
import Interaction.Document.Cursor
import Interaction.Store
import Interaction.Text.CodePoint
import Interaction.Text.Numeral

/-! Texts of the format in which data are interchanged: null, truth values, numbers, strings, arrays and objects, with
blanks wherever the format allows them. A text is given by how it is written, so all that the format leaves open, such
as escapes and exponents, is part of it. What a text means is a value in a store. -/

namespace Interaction

namespace Json

/-! ### Blanks -/

inductive Blank where
  | space
  | tab
  | feed
  | carriage
  deriving DecidableEq

def Blank.char : Blank → Char
  | .space => ' '
  | .tab => '\t'
  | .feed => '\n'
  | .carriage => '\r'

def blank (bs : List Blank) : List Char :=
  bs.map Blank.char

/-! ### Numbers -/

def digits (ds : List (Fin 10)) : List Char :=
  ds.map fun (d : Fin 10) => Nat.digitChar d

def decimal (ds : List (Fin 10)) : Nat :=
  ds.foldl (fun (n : Nat) (d : Fin 10) => 10 * n + d) 0

structure Digits where
  first : Fin 10
  rest : List (Fin 10) := []

def Digits.all (ds : Digits) : List (Fin 10) :=
  ds.first :: ds.rest

/-- The digits of a whole number. Only zero itself begins with a zero. -/
inductive Whole where
  | zero
  | counting (first : Fin 9) (rest : List (Fin 10))

def Whole.all : Whole → List (Fin 10)
  | .zero => [0]
  | .counting first rest => first.succ :: rest

structure Exponent where
  capital : Bool
  sign : Option Bool
  power : Digits

structure Numeral where
  negative : Bool := false
  whole : Whole
  fraction : Option Digits := none
  exponent : Option Exponent := none

def minus (negative : Bool) : List Char :=
  if negative then ['-'] else []

def Exponent.chars (e : Exponent) : List Char :=
  (if e.capital then 'E' else 'e') :: ((e.sign.elim [] fun negative => [if negative then '-' else '+']) ++
    digits e.power.all)

def Exponent.value (e : Exponent) : Int :=
  if e.sign = some true then -decimal e.power.all else decimal e.power.all

namespace Numeral

def decimals (n : Numeral) : List (Fin 10) :=
  n.fraction.elim [] Digits.all

def chars (n : Numeral) : List Char :=
  minus n.negative ++ digits n.whole.all ++ (n.fraction.elim [] fun ds => '.' :: digits ds.all) ++
    n.exponent.elim [] Exponent.chars

/-- The number that is written, which is whole if it has neither a fraction nor an exponent. -/
def value (n : Numeral) : Scalar :=
  if n.fraction.isNone && n.exponent.isNone then
    .int (if n.negative then -decimal n.whole.all else decimal n.whole.all)
  else
    .float (Decimal.toFloat n.negative (decimal (n.whole.all ++ n.decimals))
      (n.exponent.elim 0 Exponent.value - n.decimals.length))

end Numeral

/-! ### Strings -/

structure HexDigit where
  value : Fin 16
  capital : Bool := false

def HexDigit.char (d : HexDigit) : Char :=
  if d.capital then (Nat.digitChar d.value).toUpper else Nat.digitChar d.value

structure Code where
  a : HexDigit
  b : HexDigit
  c : HexDigit
  d : HexDigit

def Code.number (code : Code) : Nat :=
  ((code.a.value * 16 + code.b.value) * 16 + code.c.value) * 16 + code.d.value

def isPlain (c : Char) : Bool :=
  0x20 ≤ c.toNat && c ≠ '"' && c ≠ '\\'

def escapes : List (Char × Char) :=
  [('"', '"'), ('\\', '\\'), ('/', '/'), ('b', Char.ofNat 8), ('f', Char.ofNat 0xC), ('n', '\n'), ('r', '\r'), ('t', '\t')]

inductive Piece where
  | plain (c : Char) (fits : isPlain c = true)
  | escape (letter : Char × Char) (known : letter ∈ escapes)
  | unit (code : Code)

def Piece.chars : Piece → List Char
  | .plain c _ => [c]
  | .escape letter _ => ['\\', letter.1]
  | .unit code => ['\\', 'u', code.a.char, code.b.char, code.c.char, code.d.char]

/-- The code point that a piece stands for by itself. -/
def Piece.point : Piece → Nat
  | .plain c _ => c.toNat
  | .escape letter _ => letter.2.toNat
  | .unit code => code.number

/-- The code point that two pieces make together. -/
def joint? : Piece → Piece → Option Nat
  | .unit high, .unit low => Text.pair? high.number low.number
  | _, _ => none

def written (ps : List Piece) : List Char :=
  ps.flatMap Piece.chars

def quoted (ps : List Piece) : List Char :=
  '"' :: (written ps ++ ['"'])

def unescaped : List Piece → List Nat
  | [] => []
  | [p] => [p.point]
  | p :: q :: rest =>
    match joint? p q with
    | some n => n :: unescaped rest
    | none => p.point :: unescaped (q :: rest)

def textOf (ps : List Piece) : String :=
  Text.ofPoints (unescaped ps)

end Json

/-! ### Values -/

open Json in
mutual

inductive Json where
  | null
  | bool (b : Bool)
  | number (n : Numeral)
  | string (ps : List Piece)
  | array (items : Json.Items) (inner : List Blank)
  | object (entries : Json.Entries) (inner : List Blank)

inductive Json.Items where
  | nil
  | cons (before : List Blank) (item : Json) (after : List Blank) (rest : Json.Items)

inductive Json.Entries where
  | nil
  | cons (before : List Blank) (key : List Piece) (middle beyond : List Blank) (item : Json) (after : List Blank)
    (rest : Json.Entries)

end

namespace Json

def comma (first : Bool) : List Char :=
  if first then [] else [',']

mutual

def chars : Json → List Char
  | .null => "null".toList
  | .bool b => if b then "true".toList else "false".toList
  | .number n => n.chars
  | .string ps => quoted ps
  | .array items inner => '[' :: (items.chars true ++ (blank inner ++ [']']))
  | .object entries inner => '\x7b' :: (entries.chars true ++ (blank inner ++ ['\x7d']))

def Items.chars : Items → Bool → List Char
  | .nil, _ => []
  | .cons before item after rest, first =>
    comma first ++ (blank before ++ (item.chars ++ (blank after ++ rest.chars false)))

def Entries.chars : Entries → Bool → List Char
  | .nil, _ => []
  | .cons before key middle beyond item after rest, first =>
    comma first ++ (blank before ++ (quoted key ++ (blank middle ++ ':' ::
      (blank beyond ++ (item.chars ++ (blank after ++ rest.chars false))))))

end

def Entries.keys : Entries → List String
  | .nil => []
  | .cons _ key _ _ _ _ rest => textOf key :: rest.keys

mutual

def Distinct : Json → Prop
  | .array items _ => items.Distinct
  | .object entries _ => entries.keys.Nodup ∧ entries.Distinct
  | _ => True

def Items.Distinct : Items → Prop
  | .nil => True
  | .cons _ item _ rest => item.Distinct ∧ rest.Distinct

def Entries.Distinct : Entries → Prop
  | .nil => True
  | .cons _ _ _ _ item _ rest => item.Distinct ∧ rest.Distinct

end

/-- A value is a scalar as a store holds it, where an undefined number has a mark. -/
def IsScalar (x : Scalar) (v : Value) : Prop :=
  ∃ s : Store, (s.own x).2 = v

mutual

/-- A value of a store is what a text stands for. Arrays are lists and objects are mappings, in the order of the text. -/
def Means (s : Store) : Json → Value → Prop
  | .null, v => v = .null
  | .bool b, v => v = .bool b
  | .number n, v => IsScalar n.value v
  | .string ps, v => v = .text (textOf ps)
  | .array items _, v => ∃ vs, s.cell? v = some (.list vs) ∧ items.Mean s vs
  | .object entries _, v => ∃ found, s.cell? v = some (.map found) ∧ entries.Mean s found

def Items.Mean (s : Store) : Items → List Value → Prop
  | .nil, vs => vs = []
  | .cons _ item _ rest, vs => ∃ v more, vs = v :: more ∧ item.Means s v ∧ rest.Mean s more

def Entries.Mean (s : Store) : Entries → List (Value × Value) → Prop
  | .nil, found => found = []
  | .cons _ key _ _ item _ rest, found =>
    ∃ v more, found = (.text (textOf key), v) :: more ∧ item.Means s v ∧ rest.Mean s more

end

/-! ### What is read otherwise -/

/-- Parts of strings that the reader of documents takes for something else, or does not take at all. -/
inductive Misread : List Piece → Prop
  | pair {p q : Piece} {n : Nat} (joined : joint? p q = some n) : Misread [p, q]
  | forbidden {c : Char} {fits : isPlain c = true} (forbidden : Document.isAllowed c = false) : Misread [.plain c fits]
  | nextLine {c : Char} {fits : isPlain c = true} (next : c.toNat = 0x85) : Misread [.plain c fits]
  | ending {c d : Char} {fits : isPlain c = true} {fits' : isPlain d = true} (space : c = ' ')
      (line : Document.isBreak d = true) : Misread [.plain c fits, .plain d fits']
  | beginning {c d : Char} {fits : isPlain c = true} {fits' : isPlain d = true} (line : Document.isBreak c = true)
      (space : d = ' ') : Misread [.plain c fits, .plain d fits']
  | separator {c m d : Char} {fits : isPlain c = true} {fits' : isPlain m = true} {fits'' : isPlain d = true}
      (line : Document.isBreak c = true) (mark : m = '-' ∨ m = '.') (stop : Document.endsWord (some d) = true) :
      Misread [.plain c fits, .plain m fits', .plain m fits', .plain m fits', .plain d fits'']

def Intact (ps : List Piece) : Prop :=
  ∀ part, part <:+: ps → ¬ Misread part

/-- Numbers that are taken for numbers: a whole number has no more digits than any that is read, and an exponent comes
after a fraction and has a sign. -/
def Numeral.Regular (n : Numeral) : Prop :=
  match n.fraction, n.exponent with
  | none, none => n.whole.all.length ≤ Text.maxDigits
  | some _, none => True
  | none, some _ => False
  | some _, some e => e.sign ≠ none

/-- Keys that are known to be keys when the colon is met: they stand on one line with it, no more than 1024 characters
before it. -/
def Close (key : List Piece) (middle : List Blank) : Prop :=
  (∀ c ∈ written key, Document.isBreak c = false) ∧ .feed ∉ middle ∧ .carriage ∉ middle ∧
    (quoted key).length + middle.length ≤ 1024

instance (key : List Piece) (middle : List Blank) : Decidable (Close key middle) :=
  inferInstanceAs (Decidable (_ ∧ _))

mutual

/-- The texts that the reader of documents takes for what they mean. There are no tabs between their tokens, their keys
are close to the colons, and their numbers and strings are read as they are. -/
def Legible : Json → Prop
  | .null | .bool _ => True
  | .number n => n.Regular
  | .string ps => Intact ps
  | .array items inner => items.Legible ∧ .tab ∉ inner
  | .object entries inner => entries.Legible ∧ .tab ∉ inner

def Items.Legible : Items → Prop
  | .nil => True
  | .cons before item after rest => .tab ∉ before ++ after ∧ item.Legible ∧ rest.Legible

def Entries.Legible : Entries → Prop
  | .nil => True
  | .cons before key middle beyond item after rest =>
    .tab ∉ before ++ middle ++ beyond ++ after ∧ Intact key ∧ Close key middle ∧ item.Legible ∧ rest.Legible

end

structure Sheet where
  before : List Blank := []
  value : Json
  after : List Blank := []

def Sheet.chars (sheet : Sheet) : List Char :=
  blank sheet.before ++ (sheet.value.chars ++ blank sheet.after)

def Sheet.Legible (sheet : Sheet) : Prop :=
  .tab ∉ sheet.before ++ sheet.after ∧ sheet.value.Legible

end Json

end Interaction
