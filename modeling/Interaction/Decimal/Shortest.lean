/-!
Decimal texts of floating-point numbers: the fewest digits that read back as
the number, and the number that a decimal denotes.
-/

namespace Interaction.Decimal

def twos (n : Nat) : Nat := Nat.pow 2 n

def tens (n : Nat) : Nat := Nat.pow 10 n

/-- Whether a number has a minus sign. Zero may have one too. -/
def isNegative (x : Float) : Bool :=
  0x8000000000000000 ≤ x.toBits.toNat

/-- A finite positive number as `significand * 2 ^ exponent`. `narrow` holds when
the neighbour below is only half as far away as the one above. -/
structure Binary where
  significand : Nat
  exponent : Int
  narrow : Bool

/-- The parts of a finite number other than zero, without its sign. -/
def Binary.ofBits (bits : UInt64) : Binary :=
  let biased : Nat := bits.toNat / 0x10000000000000 % 0x800
  let fraction : Nat := bits.toNat % 0x10000000000000
  if biased = 0 then ⟨fraction, -1074, false⟩
  else ⟨fraction + 0x10000000000000, (biased : Int) - 1075, fraction = 0 && 1 < biased⟩

/-- `num / den` is the number, and every real strictly between `low / den` and
`high / den` is nearer to it than to any other. -/
structure Interval where
  low : Nat
  num : Nat
  high : Nat
  den : Nat
  /-- Whether the ends still read back as the number. -/
  closed : Bool

/-- The reals that read back as the number. -/
def Binary.interval (b : Binary) : Interval :=
  let below := if b.narrow then 1 else 2
  let scale := twos (b.exponent - 2).toNat
  let den := twos (2 - b.exponent).toNat
  { low := (4 * b.significand - below) * scale
    num := 4 * b.significand * scale
    high := (4 * b.significand + 2) * scale
    den := den
    closed := b.significand % 2 = 0 }

/-- Whether `digits * 10 ^ power` reads back as the number. -/
def Interval.contains (i : Interval) (digits : Nat) (power : Int) : Bool :=
  let value := digits * tens power.toNat * i.den
  let unit := tens (-power).toNat
  if i.closed then i.low * unit ≤ value && value ≤ i.high * unit
  else i.low * unit < value && value < i.high * unit

/-- The power of ten of the first digit. -/
def Interval.magnitude (i : Interval) : Int :=
  ((Nat.toDigits 10 (i.num * tens 400 / i.den)).length : Int) - 401

/-- The digit string of length `count` nearest to the number among those that
read back as it, of two equally near ones the even one. -/
def Interval.atLength? (i : Interval) (count : Nat) : Option (Nat × Int) :=
  let power := i.magnitude - count + 1
  let scaled := i.num * tens (-power).toNat
  let unit := i.den * tens power.toNat
  let down := scaled / unit
  let rest := scaled % unit
  let pickDown := 2 * rest < unit || (2 * rest = unit && down % 2 = 0)
  let first := if pickDown then down else down + 1
  let second := if pickDown then down + 1 else down
  if i.contains first power then some (first, power)
  else if i.contains second power then some (second, power)
  else none

/-- The shortest such digit string, trying `count`, `count + 1`, and so on. -/
def Interval.shortestFrom (i : Interval) (count : Nat) : Nat → Nat × Int
  | 0 => (i.num / i.den, 0)
  | tries + 1 => (i.atLength? count).getD (i.shortestFrom (count + 1) tries)

/-- Digits without trailing zeros, and the power of ten of the last. -/
def dropZeros (digits : List Char) (power : Int) : List Char × Int :=
  let kept := (digits.reverse.dropWhile (· = '0')).reverse
  (kept, power + (digits.length - kept.length : Nat))

/-- The shortest digits of a finite number other than zero, and the power of ten
of the last of them. -/
def shortest (x : Float) : List Char × Int :=
  let (digits, power) := (Binary.ofBits x.abs.toBits).interval.shortestFrom 1 17
  dropZeros (Nat.toDigits 10 digits) power

/-- The choices that fix how a number is written. -/
structure Format where
  /-- Below this power of ten of the first digit, the exponent is written. -/
  least : Int
  /-- From this power of ten of the first digit, the exponent is written. -/
  limit : Int
  infinity : String
  undefined : String

/-- Values in messages and files are positional from `0.0001` up to but without
`10 ^ 16`. -/
def Format.plain : Format := ⟨-4, 16, "inf", "nan"⟩

/-- Digits with a point after the first `places`, and a digit on either side. -/
def positional (digits : List Char) (places : Int) : List Char :=
  if places ≤ 0 then '0' :: '.' :: List.replicate (-places).toNat '0' ++ digits
  else
    let whole := digits.take places.toNat ++ List.replicate (places.toNat - digits.length) '0'
    let rest := digits.drop places.toNat
    whole ++ '.' :: (if rest.isEmpty then ['0'] else rest)

/-- An exponent with its sign and at least two digits. -/
def exponentText (e : Int) : List Char :=
  let digits := Nat.toDigits 10 e.natAbs
  (if e < 0 then '-' else '+') :: List.replicate (2 - digits.length) '0' ++ digits

/-- The text of a number: its shortest digits, positional or with an exponent as
the format says. -/
def Format.write (f : Format) (x : Float) : String :=
  if x.isNaN then f.undefined
  else
    let sign := if isNegative x then ['-'] else []
    if x.isInf then String.ofList sign ++ f.infinity
    else if x == 0.0 then String.ofList (sign ++ ['0', '.', '0'])
    else
      let (digits, power) := shortest x
      let first := power + digits.length - 1
      let body :=
        if f.least ≤ first && first < f.limit then positional digits (first + 1)
        else
          let mantissa := match digits with
            | [] => []
            | [d] => [d]
            | d :: rest => d :: '.' :: rest
          mantissa ++ 'e' :: exponentText first
      String.ofList (sign ++ body)

/-- The number `digits * 10 ^ power`, rounded to the nearest. Beyond the range of
finite numbers it is infinite, below that of the least ones zero. -/
def toFloat (negative : Bool) (digits : Nat) (power : Int) : Float :=
  let size := ((Nat.toDigits 10 digits).length : Int) + power
  let x :=
    if digits = 0 || size < -400 then 0.0
    else if 400 < size then Float.ofBits 0x7FF0000000000000
    else if power < 0 then Float.ofScientific digits true power.natAbs
    else Float.ofScientific digits false power.natAbs
  if negative then -x else x

end Interaction.Decimal
