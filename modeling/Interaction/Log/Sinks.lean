import Interaction.Log.Entry
import Interaction.Settings
import Interaction.Text.Upper
/-!
Where records are written to: a log file, which gets all of them, and the console,
which gets those that are important enough.
-/

namespace Interaction.Log

structure Sinks where
  file : Option (List String) := none
  console : Int := Level.info
  deriving Inhabited

def levelOf? (name : String) : Option Int :=
  [("CRITICAL", (50 : Int)), ("FATAL", 50), ("ERROR", 40), ("WARN", 30), ("WARNING", 30),
   ("INFO", 20), ("DEBUG", 10), ("NOTSET", 0)].lookup name

def unknownLevel (name : String) : Fault :=
  .badValue ("Unknown level: " ++ Text.quoted ("Level " ++ name))

def upperByte (b : UInt8) : UInt8 :=
  if 97 ≤ b.toNat && b.toNat ≤ 122 then b - 32 else b

/-- The level that a setting names, in letters of any size. -/
def consoleLevel (s : Store) : Value → Except Fault Int
  | .text name =>
    match levelOf? (Text.upper name) with
    | some level => .ok level
    | none => .error (unknownLevel (Text.upper name))
  | .bytes name => .error (unknownLevel (Text.quotedBytes (name.map upperByte)))
  | v => .error (.noMember (s.kind v) "upper")

def logPath (s : Store) (c : Settings) (directory : Path) : Except Fault Path := do
  match ← c.log s "log_file" with
  | .text name => return directory.join (Path.ofString name)
  | v => throw (.wrongKind ("the name of a file is required, not " ++ s.kind v))

def openFile (f : Folder) (s : Store) (c : Settings) :
    Except Fault (Folder × Option (List String)) := do
  if s.truthy (← c.log s "json_logs") then
    let directory ← pathOf s (← c.log s "log_dir")
    let f ← FileFault.lift (f.makeDirectory directory)
    let (f, place) ← FileFault.lift (f.openEnd (← logPath s c directory).straight)
    return (f, some place)
  else return (f, none)

/-- Sets up what the settings ask for. The log file comes first, and stays if the
console cannot be set up. -/
def Sinks.setUp (f : Folder) (s : Store) (c : Settings) (debug : Bool) :
    Folder × Except Fault Sinks :=
  match openFile f s c with
  | .error fault => (f, .error fault)
  | .ok (f, file) =>
    (f, do
      let console ←
        if debug then pure (Level.debug : Int)
        else do consoleLevel s (← c.log s "console_level")
      return { file, console })

/-- The name under which a logger reports. The one above all others has no name of its
own. -/
def loggerName (name : String) : String :=
  if name.isEmpty then "root" else name

def padded (width : Nat) (s : String) : String :=
  s ++ String.ofList (List.replicate (width - Text.size s.toList) ' ')

def failureText (r : Record) : Option String :=
  if r.faultless then some "NoneType: None" else r.fault.map Fault.text

/-- What the console shows of a record after the time of day. -/
def consoleText (r : Record) : String :=
  let line := " │ " ++ padded 7 (Level.name r.level) ++ " │ " ++ padded 24 r.logger ++ " │ " ++
    r.message
  match failureText r with
  | none => line
  | some text => (if line.endsWith "\n" then line else line ++ "\n") ++ text

/-- The lines that the console shows of texts, one below the other. -/
def shownLines (texts : List String) : List String :=
  texts.flatMap fun text => Text.lines (text ++ "\n")

def entryBytes (time : String) (r : Record) : List UInt8 :=
  match entry time r with
  | .ok e => Text.encode (e.line ++ "\n")
  | .error _ => []

/-- Writes a record, and gives the text that the console gets, if it gets one. Below the
lowest named level nothing is written. -/
def Sinks.write (k : Sinks) (f : Folder) (time : String) (r : Record) : Folder × List String :=
  if r.level < Level.debug then (f, [])
  else
    (match k.file with
      | some place => f.append place (entryBytes time r)
      | none => f,
     if k.console ≤ r.level then [consoleText r] else [])

def Sinks.writeAll (k : Sinks) (f : Folder) (time : String) :
    List Record → Folder × List String
  | [] => (f, [])
  | r :: rest =>
    let (f, text) := k.write f time r
    let (f, more) := k.writeAll f time rest
    (f, text ++ more)

end Interaction.Log
