import Interaction.Log.Data
import Interaction.Log.Record
import Interaction.Log.Template
/-!
Log entries: records as lines of data, with the time at which they were made.
-/

namespace Interaction.Log

/-- A number of seconds as whole seconds and microseconds. -/
def secondsOf (x : Float) : Except Fault (Int × Nat) :=
  if x.isNaN then .error (.badValue "Invalid value NaN (not a number)")
  else
    let whole := if x < 0.0 then x.ceil else x.floor
    let micros := (x - whole) * 1000000.0
    let nearest := micros.round
    let even := if (micros - nearest).abs == 0.5 then 2.0 * (micros / 2.0).round else nearest
    match Decimal.integer? whole, Decimal.integer? even with
    | some seconds, some micros =>
      if micros < 0 then .ok (seconds - 1, (micros + 1000000).toNat)
      else if micros < 1000000 then .ok (seconds, micros.toNat)
      else .ok (seconds + 1, (micros - 1000000).toNat)
    | _, _ => .error (.tooLarge "timestamp out of range")

/-- The instant that a number of seconds since the beginning of 1970 stands for. -/
def instantOf : Scalar → Except Fault (Int × Nat)
  | .int n => .ok (n, 0)
  | .bool b => .ok (if b then 1 else 0, 0)
  | .float x => secondsOf x
  | .undefined _ => secondsOf Decimal.undefined
  | s => .error (.wrongKind ("an integer is required, not " ++ s.kind))

/-- The days from the beginning of the calendar to 1970. -/
def daysBefore1970 : Nat := 719162

/-- A time in universal time. -/
def timeText (created : Scalar) : Except Fault String := do
  let (seconds, micro) ← instantOf created
  if seconds < -0x8000000000000000 || 0x8000000000000000 ≤ seconds then
    throw (.tooLarge "timestamp out of range")
  let days := seconds.fdiv 86400 + daysBefore1970
  let rest := (seconds.fmod 86400).toNat
  let year := Day.yearAfter days
  if year < 1900 - 0x80000000 || 1900 + 0x80000000 ≤ year then
    throw (.outOfReach "the year is too large")
  if year < 1 || 9999 < year then
    throw (.badValue ("year " ++ toString year ++ " is out of range"))
  let moment : Moment :=
    { day := Day.ofNumber (days.toNat + 1), hour := rest / 3600, minute := rest / 60 % 60
      second := rest % 60, micro, ahead := none }
  return moment.isoText "T" ++ "Z"

structure Entry where
  timestamp : String
  level : String
  component : String
  message : String
  state : Option Data := none
  exception : Option String := none
  deriving Inhabited

namespace Entry

def fields (e : Entry) : List (String × Data) :=
  [("timestamp", .text e.timestamp), ("level", .text e.level), ("component", .text e.component),
   ("message", .text e.message)] ++ (e.state.map fun data => ("state", data)).toList ++
    (e.exception.map fun text => ("exception", .text text)).toList

def line (e : Entry) : String :=
  String.ofList (Data.object e.fields).write

end Entry

def entry (time : String) (r : Record) : Except Fault Entry := do
  let state ← match r.state with
    | none => pure none
    | some d => do pure (some (← Data.ofDatum d))
  return { timestamp := time, level := Level.name r.level, component := r.logger
           message := r.message, state, exception := r.fault.map Fault.text }

/-- A record whose message is still to be put together. -/
structure Draft where
  created : Scalar := .int 0
  template : Datum := .text ""
  arguments : List Datum := []
  record : Record
  deriving Inhabited

namespace Draft

def complete (d : Draft) : Except Fault Record := do
  return { d.record with message := ← fillTemplate d.template.plain d.arguments }

def line (d : Draft) : Except Fault String := do
  let time ← timeText d.created
  return (← entry time (← d.complete)).line

end Draft

end Interaction.Log
