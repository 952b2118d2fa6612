import Interaction.Document.Schema
import Interaction.Decimal.Reading
import Interaction.Text.Base64
import Interaction.Text.Lower
import Interaction.Text.Numeral
/-!
What the text of a scalar stands for, once its tag is known.
-/

namespace Interaction.Document

def digitIn? (base : Nat) (c : Char) : Option Nat :=
  let value :=
    if 'a' ≤ c && c ≤ 'z' then some (c.toNat - 87)
    else if 'A' ≤ c && c ≤ 'Z' then some (c.toNat - 55)
    else Text.digitValue? c
  value.filter (· < base)

/-- The letter that may follow a zero in front of a number of a base. -/
def baseLetter? (base : Nat) : Option Char :=
  if base = 2 then some 'b' else if base = 8 then some 'o' else if base = 16 then some 'x' else none

/-- The text without the zero and the letter that announce the base. -/
def dropBase (base : Nat) : List Char → List Char
  | '0' :: c :: rest => if some c.toLower = baseLetter? base then rest else '0' :: c :: rest
  | cs => cs

/-- A text in quotes, cut off after two hundred characters. -/
def excerpt (cs : List Char) : String :=
  String.ofList ((Text.quoted (String.ofList cs)).toList.take 200)

/-- The whole number that a text denotes in a base, whatever blanks are around it. -/
def wholeNumber (base : Nat) (cs : List Char) : Except Fault Int :=
  let (negative, rest) := Decimal.spanSign (Text.trimChars cs)
  let rest := dropBase base rest
  let digits := rest.takeWhile fun c => (digitIn? base c).isSome
  if base = 10 && Text.maxDigits < digits.length then .error (.longNumeral digits.length)
  else if digits.isEmpty || digits.length < rest.length then
    .error (.badValue ("invalid literal for int() with base " ++ toString base ++ ": " ++
      excerpt cs))
  else
    let n : Int := digits.foldl (fun n c => base * n + (digitIn? base c).getD 0) 0
    .ok (if negative then -n else n)

/-- The number that parts stand for, each worth sixty times the next. -/
def sixties (parts : List Int) : Int :=
  parts.foldl (fun n part => 60 * n + part) 0

/-- Splits off the sign. There has to be something to split it from. -/
def signOf : List Char → Except Fault (Bool × List Char)
  | [] => .error .noDigits
  | cs => .ok (Decimal.spanSign cs)

def readInteger (text : List Char) : Except Fault Int := do
  let (negative, cs) ← signOf (text.filter (· ≠ '_'))
  let n ←
    match cs with
    | [] => .error .noDigits
    | ['0'] => pure 0
    | '0' :: 'b' :: rest => wholeNumber 2 rest
    | '0' :: 'x' :: rest => wholeNumber 16 rest
    | '0' :: _ => wholeNumber 8 cs
    | _ =>
      if cs.contains ':' then do
        let (first, more) := Text.split ':' cs
        pure (sixties (← (first :: more).mapM (wholeNumber 10)))
      else wholeNumber 10 cs
  return if negative then -n else n

/-- A number as it stands between colons or by itself. -/
def plainNumber (cs : List Char) : Except Fault Float :=
  match Decimal.read? cs with
  | some x => .ok x
  | none =>
    .error (.badValue ("could not convert string to float: " ++ Text.quoted (String.ofList cs)))

/-- The number that parts stand for, from the last to the first, where the last is
worth `unit`. A unit that is larger than any number is refused. -/
def sixtiesFrom (unit : Nat) (sum : Float) : List Float → Except Fault Float
  | [] => .ok sum
  | part :: rest =>
    let worth := Decimal.toFloat false unit 0
    if worth.isInf then .error (.tooLarge "int too large to convert to float")
    else sixtiesFrom (60 * unit) (sum + part * worth) rest

/-- A number in any of its notations. All documents share one undefined number. -/
def readNumber (text : List Char) : Except Fault Scalar := do
  let (negative, cs) ← signOf (Text.lower (text.filter (· ≠ '_')))
  if cs = ".nan".toList then return .undefined 0
  let x ←
    if cs = ".inf".toList then pure (Float.ofBits 0x7FF0000000000000)
    else if cs.contains ':' then do
      let (first, more) := Text.split ':' cs
      sixtiesFrom 1 0.0 (← (first :: more).mapM plainNumber).reverse
    else plainNumber cs
  return .float (if negative then -x else x)

/-- A truth value in any of its spellings. -/
def readBool (text : List Char) : Except Fault Bool :=
  let word := String.ofList (Text.lower text)
  if word = "yes" || word = "true" || word = "on" then .ok true
  else if word = "no" || word = "false" || word = "off" then .ok false
  else .error (.unknownName word)

def readBytes (text : List Char) : Except Fault (List UInt8) :=
  if text.any fun c => 0x80 ≤ c.toNat then .error .badDocument
  else
    match Text.base64? text with
    | some bytes => .ok bytes
    | none => .error .badDocument

def readStamp (text : List Char) : Except Fault Scalar :=
  match stamp? (Schema.dropFinalBreak text) with
  | some stamp => stamp.read
  | none => .error (.noMember Scalar.null.kind "groupdict")

/-- What a text stands for under a tag of the standard. -/
def readScalar (tag : String) (text : List Char) : Except Fault Scalar :=
  match tag with
  | "null" => .ok .null
  | "bool" => (readBool text).map .bool
  | "int" => (readInteger text).map .int
  | "float" => readNumber text
  | "binary" => (readBytes text).map .bytes
  | "timestamp" => readStamp text
  | "str" => .ok (.text (String.ofList text))
  | _ => .error .badDocument

end Interaction.Document
