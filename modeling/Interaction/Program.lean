import Interaction.Runner
import Interaction.Log.Sinks
/-!
The program: it reads its settings, sets up the log, makes a runner and lets it handle
the input.
-/

namespace Interaction

structure Program where
  runner : Runner
  sinks : Log.Sinks := {}
  /-- What happened and has been written to the log. -/
  past : List Occurrence := []
  console : List String := []
  /-- What the runner has to come to an end with. -/
  task : Option Nat := none
  deriving Inhabited

namespace Program

inductive Ending where
  | done
  /-- The settings ask for what cannot be made. -/
  | refused
  | failed (fault : Fault)
  deriving Inhabited

def records (occurrences : List Occurrence) : List Record :=
  occurrences.filterMap fun o =>
    match o with
    | .reported r => some r
    | _ => none

def flush (p : Program) (time : String) : Program :=
  let session := p.runner.session
  let recent := session.trace.reverse
  let (folder, texts) := p.sinks.writeAll p.runner.folder time (records recent)
  { p with
    runner := { p.runner with session := { session with trace := [] }, folder }
    past := p.past ++ recent
    console := p.console ++ texts }

def report (p : Program) (level : Nat) (message : String) : Program :=
  { p with runner := { p.runner with
      session := p.runner.session.log (.program level message) } }

def greeting : String :=
  "Commands: run, pause, reset, state, quit; anything else fires an event"

def readSettings (folder : Folder) (path : String) : Except Fault Runner := do
  let (store, settings) ← Settings.load folder {} (.text path)
  return { session := { store }, settings, folder }

def openLog (r : Runner) : Program × Except Fault Unit :=
  let store := r.session.store
  match Log.Sinks.setUp r.folder store r.settings (store.truthy r.settings.debug) with
  | (folder, .error fault) => ({ runner := { r with folder } }, .error fault)
  | (folder, .ok sinks) => ({ runner := { r with folder }, sinks }, .ok ())

def startRunner (p : Program) (time : String) : Program × Option Ending :=
  match p.runner.start with
  | (runner, .error fault) => ({ p with runner }.flush time, some (.failed fault))
  | (runner, .ok none) => ({ p with runner }.flush time, some .done)
  | (runner, .ok (some id)) => ({ p with runner, task := some id }.flush time, none)

/-- Makes a runner and starts it, unless that ends the program. -/
def launch (p : Program) (homes : List Home) (time : String) : Program × Option Ending :=
  match p.runner.build homes with
  | (runner, .error fault) =>
    let p := { p with runner }
    if fault.isExpected then
      ((p.report Level.error ("Invalid runtime configuration: " ++ fault.message)).flush time,
        some .refused)
    else (p.flush time, some (.failed fault))
  | (runner, .ok ()) =>
    (({ p with runner }.report Level.info greeting).flush time).startRunner time

/-- Begins with the settings at a path, up to the first line of input. -/
def begin (homes : List Home) (folder : Folder) (path time : String) :
    Program × Option Ending :=
  match readSettings folder path with
  | .error fault =>
    ({ runner := { settings := (Settings.create {}).2, folder } }, some (.failed fault))
  | .ok runner =>
    match openLog runner with
    | (p, .error fault) => (p, some (.failed fault))
    | (p, .ok ()) => p.launch homes time

def ending? (p : Program) : Option Ending :=
  match p.task.bind p.runner.session.schedule.outcome? with
  | none => none
  | some (.ok _) => some .done
  | some (.error fault) => some (.failed fault)

/-- Works on until a line of input is asked for or the end is reached. -/
def settle (p : Program) (fuel : Nat) (time : String) : Program :=
  { p with runner := p.runner.settle fuel }.flush time

/-- Gives a line of input that was asked for. -/
def listen (p : Program) (fuel : Nat) (line : Option String) (time : String) : Program :=
  { p with runner := p.runner.listen fuel line }.flush time

/-- Gives lines of input one after the other, as long as they are asked for. -/
def attend (p : Program) (fuel : Nat) (lines : List (Option String)) (time : String) : Program :=
  { p with runner := p.runner.attend fuel lines }.flush time

def run (homes : List Home) (folder : Folder) (path : String) (fuel : Nat)
    (lines : List (Option String)) (time : String) : Program × Ending :=
  match begin homes folder path time with
  | (p, some ending) => (p, ending)
  | (p, none) =>
    let p := p.attend fuel lines time
    (p, p.ending?.getD .done)

end Program

end Interaction
