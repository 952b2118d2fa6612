import Interaction.Datum
import Interaction.Fault
/-!
Days and moments as they are written in documents.
-/

namespace Interaction.Document

/-- How far the clock was ahead of universal time, as it is written. -/
structure ZoneText where
  west : Bool
  hours : List Char
  minutes : List Char
  deriving Inhabited

/-- A time of day, as it is written. -/
structure TimeText where
  hour : List Char
  minute : List Char
  second : List Char
  fraction : List Char
  /-- Universal time is ahead by nothing. -/
  zone : Option ZoneText
  deriving Inhabited

/-- A day, perhaps with a time, as it is written. -/
structure StampText where
  year : List Char
  month : List Char
  day : List Char
  time : Option TimeText
  deriving Inhabited

/-- At least `least` and at most `most` digits, and what comes after them. -/
def someDigits? (least most : Nat) (cs : List Char) : Option (List Char × List Char) :=
  let digits := (cs.take most).takeWhile Char.isDigit
  if digits.length < least then none else some (digits, cs.drop digits.length)

def after? (c : Char) : List Char → Option (List Char)
  | d :: rest => if d = c then some rest else none
  | [] => none

def isBlankChar (c : Char) : Bool :=
  c = ' ' || c = '\t'

/-- The offset of a clock, up to the end of the text. -/
def zone? (west : Bool) (cs : List Char) : Option ZoneText := do
  let (hours, rest) ← someDigits? 1 2 cs
  if rest.isEmpty then return ⟨west, hours, []⟩
  let (minutes, rest) ← someDigits? 2 2 (← after? ':' rest)
  if rest.isEmpty then return ⟨west, hours, minutes⟩ else none

/-- A time of day, up to the end of the text. -/
def time? (cs : List Char) : Option TimeText := do
  let (hour, rest) ← someDigits? 1 2 cs
  let (minute, rest) ← someDigits? 2 2 (← after? ':' rest)
  let (second, rest) ← someDigits? 2 2 (← after? ':' rest)
  let (fraction, rest) := match rest with
    | '.' :: rest => (rest.takeWhile Char.isDigit, rest.dropWhile Char.isDigit)
    | _ => ([], rest)
  let time := TimeText.mk hour minute second fraction
  if rest.isEmpty then return time none
  match rest.dropWhile isBlankChar with
  | ['Z'] => return time (some ⟨false, [], []⟩)
  | '+' :: rest => return time (some (← zone? false rest))
  | '-' :: rest => return time (some (← zone? true rest))
  | _ => none

/-- The text of a time after what separates it from the day. -/
def timeAfter? : List Char → Option (List Char)
  | c :: rest =>
    if c = 'T' || c = 't' then some rest
    else if isBlankChar c then some (rest.dropWhile isBlankChar)
    else none
  | [] => none

/-- A day, perhaps with a time. -/
def stamp? (cs : List Char) : Option StampText := do
  let (year, rest) ← someDigits? 4 4 cs
  let (month, rest) ← someDigits? 1 2 (← after? '-' rest)
  let (day, rest) ← someDigits? 1 2 (← after? '-' rest)
  if rest.isEmpty then return ⟨year, month, day, none⟩
  return ⟨year, month, day, some (← time? (← timeAfter? rest))⟩

/-- Whether a text is taken for a day or a moment without being told so. A day by
itself needs all its digits. -/
def isStamp (cs : List Char) : Bool :=
  match stamp? cs with
  | none => false
  | some stamp => stamp.time.isSome || (stamp.month.length = 2 && stamp.day.length = 2)

def decimalValue (cs : List Char) : Nat :=
  cs.foldl (fun n c => 10 * n + (c.toNat - 48)) 0

def checkedDay (year month day : Nat) : Except Fault Day :=
  if year = 0 then .error (.badValue "year 0 is out of range")
  else if month = 0 || 12 < month then .error (.badValue "month must be in 1..12")
  else if day = 0 || daysInMonth year month < day then
    .error (.badValue "day is out of range for month")
  else .ok ⟨year, month, day⟩

/-- Seconds ahead of universal time, less than a day. -/
def checkedZone (zone : ZoneText) : Except Fault Int :=
  let size : Int := decimalValue zone.hours * 3600 + decimalValue zone.minutes * 60
  let ahead := if zone.west then -size else size
  if size < 86400 then .ok ahead
  else .error (.badValue ("offset must be a timedelta strictly between -timedelta(hours=24) " ++
    "and timedelta(hours=24), not " ++ Datum.spanText ahead ++ "."))

/-- Six digits of a fraction of a second. -/
def microseconds (fraction : List Char) : Nat :=
  let digits := fraction.take 6
  decimalValue digits * Nat.pow 10 (6 - digits.length)

def StampText.read (stamp : StampText) : Except Fault Scalar := do
  let year := decimalValue stamp.year
  let month := decimalValue stamp.month
  let day := decimalValue stamp.day
  match stamp.time with
  | none => return .day (← checkedDay year month day)
  | some time =>
    let ahead ← time.zone.mapM checkedZone
    let day ← checkedDay year month day
    let hour := decimalValue time.hour
    let minute := decimalValue time.minute
    let second := decimalValue time.second
    if 23 < hour then throw (.badValue "hour must be in 0..23")
    if 59 < minute then throw (.badValue "minute must be in 0..59")
    if 59 < second then throw (.badValue "second must be in 0..59")
    return .moment { day, hour, minute, second, micro := microseconds time.fraction, ahead }

end Interaction.Document
