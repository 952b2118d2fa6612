import Interaction.Decimal.Shortest
/-!
Decimal texts of floating-point numbers with a given number of digits.
-/

namespace Interaction.Decimal

/-- A quotient rounded to the nearest whole number, of two equally near ones to the
even one. -/
def roundDiv (num den : Nat) : Nat :=
  let down := num / den
  let rest := num % den
  if 2 * rest < den then down
  else if 2 * rest = den then down + down % 2
  else down + 1

/-- A finite number without its sign as a fraction. -/
def fraction (x : Float) : Nat × Nat :=
  let b := Binary.ofBits x.abs.toBits
  (b.significand * twos b.exponent.toNat, twos (-b.exponent).toNat)

/-- The whole part of a finite number, without its sign. -/
def wholePart (x : Float) : Nat :=
  (fraction x).1 / (fraction x).2

/-- The ways to write a number with a given number of digits. -/
inductive Style where
  /-- Digits on both sides of the point, a given number of them after it. -/
  | fixed
  /-- One digit before the point, a given number after it, and an exponent. -/
  | scientific
  /-- A given number of digits in all, in the shorter of the two ways. -/
  | general
  deriving DecidableEq, Inhabited

/-- A whole number of units of the last of `places` places. -/
def pointed (units places : Nat) (point : Bool) : List Char :=
  let digits := Nat.toDigits 10 units
  let digits := List.replicate (places + 1 - digits.length) '0' ++ digits
  let whole := digits.take (digits.length - places)
  if places = 0 then (if point then whole ++ ['.'] else whole)
  else whole ++ '.' :: digits.drop (digits.length - places)

/-- A number with `places` digits after the point. -/
def fixedText (x : Float) (places : Nat) (point : Bool) : List Char :=
  let (num, den) := fraction x
  pointed (roundDiv (num * tens places) den) places point

/-- The first `places + 1` digits of a number, and the power of ten of the first of
them. -/
def leading (x : Float) (places : Nat) : Nat × Int :=
  if x == 0.0 then (0, 0)
  else
    let (num, den) := fraction x
    let first := (Binary.ofBits x.abs.toBits).interval.magnitude
    let power := first - places
    let digits := roundDiv (num * tens (-power).toNat) (den * tens power.toNat)
    if digits < tens (places + 1) then (digits, first) else (digits / 10, first + 1)

/-- A number with an exponent and `places` digits after the point. -/
def scientificText (x : Float) (places : Nat) (point : Bool) : List Char :=
  let (digits, power) := leading x places
  pointed digits places point ++ 'e' :: exponentText power

/-- A text without the zeros at the end of its fraction, and without a point at its
end. -/
def dropFraction (cs : List Char) : List Char :=
  if cs.contains '.' then
    match cs.reverse.dropWhile (· = '0') with
    | '.' :: rest => rest.reverse
    | rest => rest.reverse
  else cs

/-- A number with `count` digits in all. Unless `point` is set, zeros at the end are
left out. -/
def generalText (x : Float) (count : Nat) (point : Bool) : List Char :=
  let count := max count 1
  let (digits, power) := leading x (count - 1)
  let trim := fun cs => if point then cs else dropFraction cs
  if -4 ≤ power && power < count then trim (fixedText x (count - 1 - power).toNat point)
  else trim (pointed digits (count - 1) point) ++ 'e' :: exponentText power

/-- The text of a number with a given number of digits. -/
def Style.write (style : Style) (x : Float) (places : Nat) (point : Bool) : List Char :=
  if x.isNaN then "nan".toList
  else
    let sign := if isNegative x then ['-'] else []
    if x.isInf then sign ++ "inf".toList
    else
      sign ++ match style with
        | .fixed => fixedText x places point
        | .scientific => scientificText x places point
        | .general => generalText x places point

end Interaction.Decimal
