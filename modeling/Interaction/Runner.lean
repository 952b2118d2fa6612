import Interaction.Component.Load
import Interaction.Session.Step
import Interaction.Settings
/-!
The runner: a session that is made as settings say, and that handles lines of input.
-/

namespace Interaction

namespace Store

/-- Changes a mapping by pairs of a key and a value. `index` pairs came before. -/
def updatePairs (s : Store) (mapping : Value) (index : Nat) : List Value → Except Fault Store
  | [] => .ok s
  | pair :: rest =>
    match s.members? pair with
    | none => .error (.wrongKind ("cannot convert dictionary update sequence element #" ++
        toString index ++ " to a sequence"))
    | some [key, value] => do
      let s ← s.putEntry mapping key value
      updatePairs s mapping (index + 1) rest
    | some parts => .error (.badValue ("dictionary update sequence element #" ++
        toString index ++ " has length " ++ toString parts.length ++ "; 2 is required"))

/-- Changes a mapping by the entries of another one. -/
def updateEntries (s : Store) (mapping : Value) : Entries → Except Fault Store
  | [] => .ok s
  | (key, value) :: rest => do
    let s ← s.putEntry mapping key value
    updateEntries s mapping rest

/-- Changes a mapping by another one, or by pairs. -/
def update (s : Store) (mapping source : Value) : Except Fault Store :=
  match s.entries? source, s.members? source with
  | some entries, _ => s.updateEntries mapping entries
  | none, some pairs => s.updatePairs mapping 0 pairs
  | none, none => .error (.notIterable (s.kind source))

end Store

namespace Session

def setCoordinator (s : Session) (f : Coordinator → Coordinator) : Session :=
  { s with coordinator := f s.coordinator }

/-- Makes the factory that a setting asks for. By default situations are reported. -/
def makeFactory (s : Session) (homes : List Home) (reference : Value) :
    Session × Except Fault Factory :=
  if s.store.truthy reference then
    match s.loadComponent homes reference true with
    | (s, .error fault) => (s, .error fault)
    | (s, .ok loaded) => (s, .ok (s.asFactory loaded))
  else (s, .ok .logging)

/-- Makes the default service that a setting asks for, if it asks for one. -/
def makeDefault (s : Session) (homes : List Home) (reference : Value) :
    Session × Except Fault (Option Nat) :=
  if s.store.truthy reference then
    match s.loadComponent homes reference true with
    | (s, .error fault) => (s, .error fault)
    | (s, .ok loaded) =>
      let (s, place) := s.asService loaded
      (s, .ok place)
  else (s, .ok none)

def makeServices (s : Session) (homes : List Home) : Entries → Session × Except Fault Unit
  | [] => (s, .ok ())
  | (name, reference) :: rest =>
    match s.loadComponent homes reference true with
    | (s, .error fault) => (s, .error fault)
    | (s, .ok loaded) =>
      let (s, place) := s.asService loaded
      match s.register name place with
      | (s, .error fault) => (s, .error fault)
      | (s, .ok ()) => makeServices s homes rest

def fillContext (s : Session) (source : Value) : Session × Except Fault Unit :=
  match s.store.update s.coordinator.context source with
  | .error fault => (s, .error fault)
  | .ok store => ({ s with store }, .ok ())

/-- Runs the second operation unless the first one fails. -/
def andThen (first : Session × Except Fault α) (next : Session → α → Session × Except Fault β) :
    Session × Except Fault β :=
  match first with
  | (s, .error fault) => (s, .error fault)
  | (s, .ok a) => next s a

def setting (s : Session) (v : Except Fault Value) : Session × Except Fault Value :=
  (s, v)

/-- Makes the coordinator that settings ask for: the factory, the default service,
the other services, and the data context. -/
def makeCoordinator (s : Session) (homes : List Home) (c : Settings) :
    Session × Except Fault Unit :=
  andThen (s.setting (c.runner s.store "situation_factory")) fun s reference =>
  andThen (s.makeFactory homes reference) fun s factory =>
  andThen (s.setting (c.runner s.store "default_service")) fun s reference =>
  andThen (s.makeDefault homes reference) fun s default =>
    let (store, context) := s.store.add (.map [])
    let registry := default.toList.map fun place => ("", place)
    let s := { s with store }.setCoordinator fun old => { old with factory, registry, context }
    andThen (s.setting (c.runner s.store "services")) fun s services =>
      match s.store.entries? services with
      | none => (s, .error (.noMember (s.store.kind services) "items"))
      | some entries =>
        andThen (s.makeServices homes entries) fun s _ =>
        andThen (s.setting (c.runner s.store "context")) fun s source => s.fillContext source

def makeMachine (s : Session) (c : Settings) : Session × Except Fault Unit :=
  match c.machine s.store "history_size" with
  | .error fault => (s, .error fault)
  | .ok size =>
    match Machine.limitOf s.store size with
    | .error fault => (s, .error fault)
    | .ok limit => ({ s with machine := some { limit } }, .ok ())

def make (s : Session) (homes : List Home) (c : Settings) : Session × Except Fault Unit :=
  andThen ({ s with behavior := .coordinated }.makeCoordinator homes c) fun s _ =>
    s.makeMachine c

end Session

/-- A session, the settings that it was made from, and the files around it. -/
structure Runner where
  session : Session := {}
  settings : Settings
  folder : Folder := {}
  deriving Inhabited

namespace Runner

def prompt : String := "aaim> "

/-- Makes the session that the settings ask for. -/
def build (r : Runner) (homes : List Home) : Runner × Except Fault Unit :=
  let (session, answer) := r.session.make homes r.settings
  ({ r with session }, answer)

def modelPath (r : Runner) (path : Value) : Except Fault Value :=
  if r.session.store.truthy path then .ok path
  else r.settings.runner r.session.store "model_path"

/-- Loads the model document at a path, or at the one that the settings say. -/
def loadModel (r : Runner) (path : Value) : Runner × Except Fault Bool :=
  match r.modelPath path with
  | .error fault => (r, .error fault)
  | .ok path =>
    match readModel r.folder r.session.store path with
    | .error fault => (r, .error fault)
    | .ok (store, model, records) =>
      let session := { r.session with store }.logAll records
      if model.isNull then ({ r with session }, .ok false)
      else
        let (session, answer) := session.load model
        ({ r with session }, answer)

def command (r : Runner) (line : Value) : Runner × Nat :=
  let frame := match line with
    | .text line => Frame.line line
    | v => .fail (.noMember (r.session.store.kind v) "strip")
  let (session, id) := r.session.spawn [frame]
  ({ r with session }, id)

def stop (r : Runner) : Runner × Nat :=
  let (session, id) := r.session.spawn [.stop]
  ({ r with session }, id)

/-- The steps that handle the input, after a first line that runs the machine if that
is asked for. -/
def inputFrames (autostart : Bool) : List Frame :=
  if autostart then [.line Command.run.word, .ask] else [.ask]

/-- Makes the directory of the log, loads the model, and begins to handle the input if
there is a model. -/
def start (r : Runner) : Runner × Except Fault (Option Nat) :=
  match r.settings.ensureDirectories r.session.store r.folder with
  | .error fault => (r, .error fault)
  | .ok folder =>
    match { r with folder }.loadModel .null with
    | (r, .error fault) => (r, .error fault)
    | (r, .ok false) =>
      let session := r.session.log (.runner Level.error "No usable model, nothing to run")
      ({ r with session }, .ok none)
    | (r, .ok true) =>
      match r.settings.runner r.session.store "autostart" with
      | .error fault => (r, .error fault)
      | .ok autostart =>
        let (session, id) := r.session.begin (inputFrames (r.session.store.truthy autostart))
        ({ r with session }, .ok (some id))

/-- Takes steps until nothing is left to do. -/
def settle (r : Runner) (fuel : Nat) : Runner :=
  { r with session := r.session.settle fuel }

/-- Gives lines of input one after the other, as long as they are asked for. -/
def attend (r : Runner) (fuel : Nat) (lines : List (Option String)) : Runner :=
  { r with session := (r.session.settle fuel).attend fuel lines }

/-- Gives a line of input that was asked for. -/
def listen (r : Runner) (fuel : Nat) (line : Option String) : Runner :=
  { r with session := r.session.listen fuel line }

def isAsking (r : Runner) : Bool :=
  r.session.asked.isSome

end Runner

end Interaction
