/-!
Days and moments of the Gregorian calendar, extended to all years from 1 to
9999, and their written forms.
-/

namespace Interaction

def isLeapYear (year : Nat) : Bool :=
  year % 4 = 0 && (year % 100 ≠ 0 || year % 400 = 0)

def daysInMonth (year month : Nat) : Nat :=
  if month = 2 then (if isLeapYear year then 29 else 28)
  else if month = 4 || month = 6 || month = 9 || month = 11 then 30
  else 31

/-- A number with at least `width` digits. -/
def padded (width n : Nat) : String :=
  let digits := Nat.toDigits 10 n
  String.ofList (List.replicate (width - digits.length) '0' ++ digits)

structure Day where
  year : Nat
  month : Nat
  day : Nat
  deriving DecidableEq, Inhabited

namespace Day

def daysBeforeYear (year : Nat) : Nat :=
  let past := year - 1
  365 * past + past / 4 - past / 100 + past / 400

def daysBeforeMonth (year month : Nat) : Nat :=
  (List.range (month - 1)).foldl (fun n m => n + daysInMonth year (m + 1)) 0

/-- The number of the day, where the first of January of the year 1 is day 1. -/
def number (d : Day) : Nat :=
  daysBeforeYear d.year + daysBeforeMonth d.year d.month + d.day

/-- Counts `rest` days on from the first of a month, for at most `months`
months. -/
def forward (year month rest : Nat) : Nat → Day
  | 0 => ⟨year, month, rest + 1⟩
  | months + 1 =>
    if rest < daysInMonth year month then ⟨year, month, rest + 1⟩
    else forward year (month + 1) (rest - daysInMonth year month) months

def ofNumber (n : Nat) : Day :=
  let guess := (n - 1) / 366 + 1
  let year := guess + ((List.range 40).filter fun k => daysBeforeYear (guess + k + 1) < n).length
  forward year 1 (n - 1 - daysBeforeYear year) 11

/-- The year in which the day lies that comes `n` days after the first of January of
the year 1. The calendar repeats itself after 400 years. -/
def yearAfter (n : Int) : Int :=
  (ofNumber ((n.fmod 146097).toNat + 1)).year + 400 * n.fdiv 146097

/-- Year, month and day, with dashes between them. -/
def isoText (d : Day) : String :=
  padded 4 d.year ++ "-" ++ padded 2 d.month ++ "-" ++ padded 2 d.day

end Day

/-- A time of a day, and how far the clock was ahead of universal time if that is
known. -/
structure Moment where
  day : Day
  hour : Nat
  minute : Nat
  second : Nat
  micro : Nat
  /-- Seconds ahead of universal time. -/
  ahead : Option Int
  deriving DecidableEq, Inhabited

namespace Moment

/-- Microseconds since the first midnight of the calendar, by the clock. -/
def clock (m : Moment) : Int :=
  (((m.day.number * 24 + m.hour) * 60 + m.minute) * 60 + m.second) * 1000000 + m.micro

/-- The instant that is named: whether the offset of the clock is known, and microseconds by
universal time if it is. A clock without a known offset names no instant that one with it could. -/
def instant (m : Moment) : Bool × Int :=
  match m.ahead with
  | none => (false, m.clock)
  | some ahead => (true, m.clock - ahead * 1000000)

/-- Hours and minutes ahead of universal time, and seconds if there are any. -/
def offsetText (ahead : Int) : String :=
  let n := ahead.natAbs
  let short := padded 2 (n / 3600) ++ ":" ++ padded 2 (n / 60 % 60)
  (if ahead < 0 then "-" else "+") ++ short ++
    (if n % 60 = 0 then "" else ":" ++ padded 2 (n % 60))

/-- The time of day, with six decimals unless they are all zero. -/
def timeText (m : Moment) : String :=
  padded 2 m.hour ++ ":" ++ padded 2 m.minute ++ ":" ++ padded 2 m.second ++
    (if m.micro = 0 then "" else "." ++ padded 6 m.micro)

/-- Day and time with `between` between them. -/
def isoText (m : Moment) (between : String) : String :=
  m.day.isoText ++ between ++ m.timeText ++ (m.ahead.map offsetText).getD ""

end Moment

end Interaction
