import Interaction.Value
import Interaction.Text.Quoted
/-!
Values with the contents of their containers, as they are at one moment: what is
recorded, compared and printed.
-/

namespace Interaction

inductive Datum where
  | scalar (s : Scalar)
  | tuple (items : List Datum)
  | list (items : List Datum)
  | map (entries : List (Datum × Datum))
  | set (items : List Datum)
  /-- A container met again inside itself. -/
  | again (mapping : Bool)
  deriving Inhabited

namespace Datum

@[match_pattern] abbrev null : Datum := .scalar .null
@[match_pattern] abbrev bool (b : Bool) : Datum := .scalar (.bool b)
@[match_pattern] abbrev int (n : Int) : Datum := .scalar (.int n)
@[match_pattern] abbrev text (s : String) : Datum := .scalar (.text s)

def isText (key : String) : Datum → Bool
  | .text s => s = key
  | _ => false

def kind : Datum → String
  | .scalar s => s.kind
  | .tuple _ => "tuple"
  | .list _ => "list"
  | .map _ => "dict"
  | .set _ => "set"
  | .again mapping => if mapping then "dict" else "list"

def commas (texts : List String) : String :=
  ", ".intercalate texts

/-- A span of time in days and seconds, as an offset from universal time is
shown. -/
def spanText (seconds : Int) : String :=
  let days := seconds.fdiv 86400
  let rest := seconds.fmod 86400
  let parts := (if days = 0 then [] else ["days=" ++ toString days]) ++
    (if rest = 0 then [] else ["seconds=" ++ toString rest])
  "datetime.timedelta(" ++ (if parts.isEmpty then "0" else commas parts) ++ ")"

/-- An offset from universal time, as it is shown. -/
def zoneText (ahead : Int) : String :=
  if ahead = 0 then "datetime.timezone.utc"
  else "datetime.timezone(" ++ spanText ahead ++ ")"

def dayText (d : Day) : String :=
  "datetime.date(" ++ commas ([d.year, d.month, d.day].map toString) ++ ")"

def momentText (m : Moment) : String :=
  let seconds :=
    if m.micro ≠ 0 then [m.second, m.micro]
    else if m.second ≠ 0 then [m.second]
    else []
  let parts := [m.day.year, m.day.month, m.day.day, m.hour, m.minute] ++ seconds
  "datetime.datetime(" ++
    commas (parts.map toString ++ (m.ahead.map fun a => "tzinfo=" ++ zoneText a).toList) ++ ")"

def scalarText : Scalar → String
  | .null => "None"
  | .bool b => if b then "True" else "False"
  | .int n => toString n
  | .float x => Decimal.Format.plain.write x
  | .undefined _ => Decimal.Format.plain.undefined
  | .text s => Text.quoted s
  | .bytes bs => Text.quotedBytes bs
  | .day d => dayText d
  | .moment m => momentText m

mutual

/-- A value as it is shown inside other values: texts stand between quotes. -/
def shown : Datum → String
  | .scalar s => scalarText s
  | .tuple items =>
    match shownItems items with
    | [one] => "(" ++ one ++ ",)"
    | texts => "(" ++ commas texts ++ ")"
  | .list items => "[" ++ commas (shownItems items) ++ "]"
  | .map entries => "\x7b" ++ commas (shownEntries entries) ++ "\x7d"
  | .set [] => "set()"
  | .set items => "\x7b" ++ commas (shownItems items) ++ "\x7d"
  | .again mapping => if mapping then "\x7b...\x7d" else "[...]"

def shownItems : List Datum → List String
  | [] => []
  | item :: rest => item.shown :: shownItems rest

/-- Each entry, its key before its value. -/
def shownEntries : List (Datum × Datum) → List String
  | [] => []
  | (key, value) :: rest => (key.shown ++ ": " ++ value.shown) :: shownEntries rest

end

/-- A value as it stands in a message: a text by itself, and days and moments by
their dates and times. -/
def plain : Datum → String
  | .text s => s
  | .scalar (.day d) => d.isoText
  | .scalar (.moment m) => m.isoText " "
  | d => d.shown

end Datum

end Interaction
