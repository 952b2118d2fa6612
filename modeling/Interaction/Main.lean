import Std.Time
import Interaction.Component.Catalogue
import Interaction.Program
/-!
The command line: the program on real files, with the terminal for its input.
-/

namespace Interaction.Terminal

/-- More steps than are taken between two lines of input. -/
def fuel : Nat := 1000000

/-- The time of day, as log entries have it. -/
def now : IO String := do
  let time ← Std.Time.Timestamp.now
  let seconds := Float.ofInt time.toNanosecondsSinceUnixEpoch.val / 1000000000.0
  return match Log.timeText (.float seconds) with
    | .ok text => text
    | .error fault => fault.message

/-- Takes a file into a folder if there is one at the path. -/
def gather (f : Folder) (path : String) : IO Folder := do
  try
    let bytes ← IO.FS.readBinFile path
    return f.addFile (Path.ofString path) bytes.toList
  catch _ => return f

def textOf (v : Except Fault Value) : String :=
  match v with
  | .ok (.text t) => t
  | _ => ""

/-- The folder with the files that the settings at a path speak of. -/
def gatherAll (path : String) : IO Folder := do
  let f ← gather {} path
  match Program.readSettings f path with
  | .error _ => return f
  | .ok r =>
    let s := r.session.store
    let f ← gather f (textOf (r.settings.runner s "model_path"))
    let log := (Path.ofString (textOf (r.settings.log s "log_dir"))).join
      (Path.ofString (textOf (r.settings.log s "log_file")))
    gather f log.text

def logBytes (p : Program) : List UInt8 :=
  match p.sinks.file.bind p.runner.folder.item? with
  | some (.file bytes) => bytes
  | _ => []

/-- A text as the terminal shows it. A half of a pair is shown by its number. -/
def shown (s : String) : String :=
  String.ofList ((Text.points s.toList).flatMap fun n =>
    if Text.isHalf n then Text.numericEscape n else [Char.ofNat n])

/-- Shows the texts that the console got since, and writes what the log file got
since. -/
def showSince (console log : Nat) (time : String) (p : Program) : IO Unit := do
  let clock := String.ofList ((time.toList.drop 11).take 8)
  for text in p.console.drop console do
    IO.eprintln (clock ++ shown text)
  match p.sinks.file with
  | none => return
  | some place =>
    IO.FS.createDirAll ((Path.ofPlace place.dropLast).text)
    let file ← IO.FS.Handle.mk ((Path.ofPlace place).text) .append
    file.write ⟨((logBytes p).drop log).toArray⟩

/-- Reads lines and gives them to the program, as long as it asks for them. -/
partial def converse (p : Program) : IO Program := do
  if p.runner.isAsking then
    (← IO.getStdout).putStr Runner.prompt
    (← IO.getStdout).flush
    let line ← (← IO.getStdin).getLine
    let time ← now
    let next := p.listen fuel (if line.isEmpty then none else some (String.ofList (Text.spelled line.toList))) time
    showSince p.console.length (logBytes p).length time next
    converse next
  else return p

def leave : Program.Ending → IO UInt32
  | .done => return 0
  | .refused => return 1
  | .failed fault => do
    IO.eprintln (shown fault.text)
    return 1

/-- Runs the program with the settings at a path. -/
def run (path : String) : IO UInt32 := do
  let folder ← gatherAll path
  let time ← now
  let (p, ending) := Program.begin Catalogue.homes folder path time
  let before := match p.sinks.file.bind folder.item? with
    | some (.file bytes) => bytes.length
    | _ => 0
  showSince 0 before time p
  match ending with
  | some ending => leave ending
  | none =>
    let time ← now
    let settled := p.settle fuel time
    showSince p.console.length (logBytes p).length time settled
    leave ((← converse settled).ending?.getD .done)

end Interaction.Terminal

/-- Runs the program with the settings at the path that is given first. -/
def main (arguments : List String) : IO UInt32 :=
  Interaction.Terminal.run (arguments.headD "config.yaml")
