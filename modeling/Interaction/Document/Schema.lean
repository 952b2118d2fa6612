import Interaction.Document.Timestamp
import Interaction.Text.Split
/-!
Schemas: what a plain text is taken for. A schema has a list of rules for every way a text
may begin; the first one that accepts a text decides.
-/

namespace Interaction.Document

structure Rule where
  tag : String
  accepts : List Char → Bool

/-- How texts begin that a list of rules is about. -/
inductive Front where
  | nothing
  | char (c : Char)
  /-- In any way. -/
  | any
  deriving DecidableEq

def Front.of (text : List Char) : Front :=
  match text with
  | [] => .nothing
  | c :: _ => .char c

abbrev Schema := Front → List Rule

namespace Schema

def oneOf (words : List String) (cs : List Char) : Bool :=
  words.any fun word => word.toList = cs

/-- A digit or a low line. -/
def isDigitOrLine (c : Char) : Bool :=
  c.isDigit || c = '_'

/-- The text without a sign in front. -/
def unsigned : List Char → List Char
  | '-' :: rest => rest
  | '+' :: rest => rest
  | cs => cs

/-- A digit, and then digits and low lines. -/
def isWhole (cs : List Char) : Bool :=
  (cs.head?.any Char.isDigit) && cs.all isDigitOrLine

/-- A whole number that does not begin with zero. -/
def isCounting (cs : List Char) : Bool :=
  isWhole cs && cs.head? ≠ some '0'

/-- A number below sixty, of one or two digits. -/
def isSixtieth : List Char → Bool
  | [d] => d.isDigit
  | [t, d] => '0' ≤ t && t ≤ '5' && d.isDigit
  | _ => false

/-- A number followed by at least one number below sixty, with colons between
them. -/
def isSexagesimal (first : List Char → Bool) (cs : List Char) : Bool :=
  let (head, more) := Text.split ':' cs
  first head && !more.isEmpty && more.all isSixtieth

def allOf (p : Char → Bool) (cs : List Char) : Bool :=
  !cs.isEmpty && cs.all p

/-- Whole numbers without their sign, in any base. -/
def isUnsignedInteger : List Char → Bool
  | ['0'] => true
  | '0' :: 'b' :: rest => allOf (fun c => c = '0' || c = '1' || c = '_') rest
  | '0' :: 'x' :: rest =>
    allOf (fun c => isDigitOrLine c || ('a' ≤ c && c ≤ 'f') || ('A' ≤ c && c ≤ 'F')) rest
  | '0' :: rest => allOf (fun c => ('0' ≤ c && c ≤ '7') || c = '_') rest
  | cs => isCounting cs || isSexagesimal isCounting cs

def isInteger (cs : List Char) : Bool :=
  isUnsignedInteger (unsigned cs)

/-- An exponent with its sign, or nothing. -/
def isExponent : List Char → Bool
  | [] => true
  | e :: sign :: digits =>
    (e = 'e' || e = 'E') && (sign = '+' || sign = '-') && allOf Char.isDigit digits
  | _ => false

/-- What comes after a point: digits, and perhaps an exponent. -/
def isFraction (cs : List Char) : Bool :=
  isExponent (cs.dropWhile isDigitOrLine)

/-- Numbers with a point after the first digits. -/
def isPointed (cs : List Char) : Bool :=
  match Text.cut? '.' cs with
  | none => false
  | some (whole, rest) =>
    (isWhole whole && isFraction rest) ||
      (isSexagesimal isWhole whole && rest.all isDigitOrLine)

/-- Numbers with a point. One that begins with the point has no sign. -/
def isNumber (cs : List Char) : Bool :=
  isPointed (unsigned cs) ||
    (match cs with
      | '.' :: d :: rest => d.isDigit && isFraction rest
      | _ => false) ||
    oneOf [".inf", ".Inf", ".INF"] (unsigned cs) ||
    oneOf [".nan", ".NaN", ".NAN"] cs

def fronts (s : String) : List Front :=
  s.toList.map .char

/-- The rule for truth values, by their spellings. -/
def boolRule (words : List String) : Rule :=
  ⟨"bool", oneOf words⟩

/-- The rules of the format, and the fronts of the texts that each is about. -/
def standard : List (Rule × List Front) :=
  [(boolRule
     ["yes", "Yes", "YES", "no", "No", "NO", "true", "True", "TRUE", "false", "False", "FALSE",
      "on", "On", "ON", "off", "Off", "OFF"], fronts "yYnNtTfFoO"),
   (⟨"float", isNumber⟩, fronts "-+0123456789."),
   (⟨"int", isInteger⟩, fronts "-+0123456789"),
   (⟨"merge", oneOf ["<<"]⟩, fronts "<"),
   (⟨"null", oneOf ["~", "null", "Null", "NULL", ""]⟩, fronts "~nN" ++ [.nothing]),
   (⟨"timestamp", isStamp⟩, fronts "0123456789"),
   (⟨"value", oneOf ["="]⟩, fronts "="),
   (⟨"yaml", oneOf ["!", "&", "*"]⟩, fronts "!&*")]

/-- A text without the line feed at its end. -/
def dropFinalBreak (cs : List Char) : List Char :=
  if cs.getLast? = some '\n' then cs.dropLast else cs

def tagOf (schema : Schema) (text : List Char) : String :=
  match (schema (.of text) ++ schema .any).find? (·.accepts (dropFinalBreak text)) with
  | some rule => rule.tag
  | none => "str"

end Schema

end Interaction.Document
