import Interaction.Session.Call
import Interaction.Reference
import Interaction.Command
/-!
The steps of the work that a session has queued, one at a time.
-/

namespace Interaction

/-- How a task goes on after a step. The frames come before those that it still
has. -/
inductive Move where
  /-- At once, with these values. -/
  | go (frames : List Frame) (values : List Value)
  /-- When a promise is settled, with what it hands on. -/
  | await (promise : Nat) (frames : List Frame)
  /-- When its turn comes again. -/
  | yield (frames : List Frame)
  | fail (fault : Fault)
  deriving Inhabited

namespace Session

/-- Maps parameters one by one, side by side, and goes on with what comes out.
Without a mapping they are left as they are. -/
def mapEach (s : Session) (mapping : Value) (values : List Value) (frames : List Frame) :
    Session × Move :=
  match s.store.items? mapping with
  | none | some [] => (s, .go frames values)
  | some _ =>
    let (s, members) := values.zipIdx.foldl (fun (s, members) (value, index) =>
      let (s, id) := s.spawn [.mapItem mapping index value]
      (s, members ++ [id])) (s, [])
    let (s, id) := s.scheduled (·.join members false)
    (s, .await id frames)

/-- Finds the parameters that a configuration gives, and hands them to the frames.
`given` are used where it gives none; `derived` are the frames for parameters that
another call gives. -/
def fetch (s : Session) (config : Value) (given : List Value) (derived : List Frame)
    (next : Session → List Value → Session × Move) : Session × Move :=
  match s.store.source (s.store.field config "parameters") with
  | .literal items =>
    match s.store.resolveItems s.coordinator.context items with
    | .error fault => (s, .fail fault)
    | .ok values => next s values
  | .derived inner => (s, .go (.invoke inner .null :: derived) [])
  | .absent => next s given

def invoke (s : Session) (config given : Value) : Session × Move :=
  match s.coordinator.target s.store config with
  | .error fault => (s, .fail fault)
  | .ok target =>
    s.fetch config ((s.store.items? given).getD []) [.map target] fun s values =>
      (s, .go [.map target] values)

def serviceText (s : Session) (config : Value) : String :=
  let name := s.store.field config "service"
  if s.store.truthy name then s.plain name else "<default>"

def announceCall (s : Session) (target : Target) (values : List Value) : Session :=
  s.log (.behavior Level.debug ("Calling " ++ s.serviceText target.config ++ "." ++
    target.method ++ " with " ++ (Datum.list (values.map s.datum)).shown))

def callTarget (s : Session) (target : Target) (values : List Value) : Session × Move :=
  let next := Frame.follow target.config
  match (s.announceCall target values).execute target.service (.text target.method) values with
  | (s, .promise id) => (s, .await id [next])
  | (s, .steps frames) => (s, .go (frames ++ [next]) [])
  | (s, .plain v) => (s, .fail (.notAwaitable (s.store.kind v)))
  | (s, .fault fault) => (s, .fail fault.ofTask)

def followCall (s : Session) (config : Value) (values : List Value) : Session × Move :=
  let result := s.store.field config "resultMapping"
  if s.store.isMapping result then (s, .go [.invoke result (.tuple values)] [])
  else (s, .go [] values)

def materialize (s : Session) (config : Value) : Session × Move :=
  s.fetch config [] [.arrange config] fun s values =>
    s.mapEach (s.store.field config "parameterMapping") values [.place config false]

/-- The items of a list that can grow. -/
def listItems? (s : Session) (v : Value) : Option (List Value) :=
  match s.store.cell? v with
  | some (.list items) => some items
  | _ => none

/-- Maps the parameters of a situation that a call has given. Only the items of a
list are mapped. -/
def arrange (s : Session) (config : Value) (values : List Value) : Session × Move :=
  let mapping := s.store.field config "parameterMapping"
  match (values.head?.bind s.listItems?), s.store.items? mapping with
  | some items, some (_ :: _) => s.mapEach mapping items [.place config false]
  | _, _ => (s, .go [.place config true] values)

/-- Asks the factory for a situation, anew or once more. -/
def callFactory (s : Session) (again : Bool) (situation : Value) (params : Datum) :
    Session × Except Fault Unit :=
  match s.coordinator.factory with
  | .absent | .silent => (s, .ok ())
  | .foreign nature => (s, .error (nature.lack (if again then "refresh" else "create")))
  | .logging =>
    (s.log (.situation Level.info ((if again then "Refresh" else "Create") ++ " situation '" ++
      s.plain situation ++ "' with " ++ params.shown)), .ok ())
  | .recording refused key =>
    let asked := s.datum situation
    let s := s.note (if again then .refreshed asked params else .created asked params)
    match s.store.isAmong situation refused, key with
    | .error fault, _ => (s, .error fault)
    | .ok true, _ => (s, .error (.raised .runtime "factory refuses"))
    | .ok false, none => (s, .ok ())
    | .ok false, some key =>
      match s.store.putEntry s.coordinator.context key situation with
      | .error fault => (s, .error fault)
      | .ok store => ({ s with store }, .ok ())

/-- Whether a configuration is the very one of the latest situation that was
created. -/
def isCurrent (s : Session) (config : Value) : Bool :=
  match s.coordinator.created with
  | some created => created.sameKey config
  | none => false

def place (s : Session) (config : Value) (whole : Bool) (values : List Value) :
    Session × Move :=
  let again := s.isCurrent config
  let situation := s.store.field config "situation"
  let params :=
    if whole then s.datum (values.head?.getD .null) else .list (values.map s.datum)
  let s := s.log (.behavior Level.debug ((if again then "Refreshing" else "Creating") ++
    " situation '" ++ s.plain situation ++ "'"))
  match s.callFactory again situation params with
  | (s, .error fault) => (s, .fail fault)
  | (s, .ok ()) =>
    (if again then s
      else { s with coordinator := { s.coordinator with created := some config } }, .go [] [])

/-- Goes on after an operation of the machine that a line asks for. The faults that
a runner expects are reported. -/
def afterLine (text : String) : Session × Except Fault Unit → Session × Move
  | (s, .ok ()) => (s, .go [.drain, .announce] [])
  | (s, .error fault) =>
    if fault.isExpected then
      (s.log (.runner Level.error ("Cannot execute '" ++ text ++ "': " ++ fault.message)),
        .go [.drain, .announce] [])
    else (s, .fail fault)

/-- Handles a line of input. It hands on whether the runner goes on. -/
def handleLine (s : Session) (text : String) : Session × Move :=
  let text := Text.trim text
  if text.isEmpty then (s, .go [] [.bool true])
  else
    match Command.parse text with
    | some .quit | some .exit =>
      (s.log (.runner Level.info "Exit command received"), .go [] [.bool false])
    | some .run => afterLine text (s.setRunning true)
    | some .pause => afterLine text (s.setRunning false)
    | some .reset => (s.reset, .go [.drain, .announce] [])
    | some .state => (s, .go [.drain, .announce] [])
    | none => afterLine text (s.fire (.text text))

def announce (s : Session) : Session :=
  let current := s.machine.bind (·.current)
  let name := match current with
    | some state => if s.store.truthy state then s.store.field state "name" else .null
    | none => .null
  let running := (s.machine.map (·.running)).getD false
  s.log (.runner Level.info ("Current state: " ++ s.plain name ++ " (" ++
    (if running then "running" else "paused") ++ ")"))

/-- Waits until no tracked behaviour is left, and then for one more turn, so that
the reports on it are made. -/
def drain (s : Session) : Session × Move :=
  match s.tracked.filter s.schedule.isPending with
  | [] => (s, .yield [])
  | members =>
    let (s, id) := s.scheduled (·.join members true)
    (s, .await id [.drain])

def ask (s : Session) : Session × Move :=
  let (s, id) := s.scheduled (·.pending)
  ({ s with asked := some id }.note .asked, .await id [.hear])

def takeStep (s : Session) (frame : Frame) (values : List Value) : Session × Move :=
  match frame with
  | .invoke config given => s.invoke config given
  | .map target =>
    s.mapEach (s.store.field target.config "parameterMapping") values [.call target]
  | .call target => s.callTarget target values
  | .follow config => s.followCall config values
  | .mapItem mapping index value =>
    match s.store.mappedCall? mapping index with
    | some config => (s, .go [.invoke config (.tuple [value])] [])
    | none => (s, .go [] [value])
  | .materialize config => s.materialize config
  | .arrange config => s.arrange config values
  | .place config whole => s.place config whole values
  | .await promise => (s, .await promise [])
  | .enterState target =>
    match s.executeState (s.store.field target "do") with
    | (s, .error fault) => (s, .fail fault)
    | (s, .ok none) => (s, .go [] [])
    | (s, .ok (some id)) => (s, .await id [])
  | .pause => (s, .yield [])
  | .act action request =>
    match s.act action request with
    | (s, .ok v) => (s, .go [] [v])
    | (s, .error fault) => (s, .fail fault.ofTask)
  | .drain => s.drain
  | .ask => s.ask
  | .hear =>
    match values with
    | [.text line] => (s, .go [.line line, .onward] [])
    | _ => (s, .go [.stop] [])
  | .line text => s.handleLine text
  | .onward =>
    match values with
    | [.bool true] => (s, .go [.ask] [])
    | _ => (s, .go [.stop] [])
  | .announce => (s.announce, .go [] [.bool true])
  | .stop =>
    match s.setRunning false with
    | (s, .error fault) => (s, .fail fault)
    | (s, .ok ()) => (s, .go [.drain, .stopped] [])
  | .stopped => (s.log (.runner Level.info "=== AAIM runtime stopped ==="), .go [] [])
  | .fail fault => (s, .fail fault)

def finish (s : Session) (task : Nat) (outcome : Outcome) : Session :=
  { s with turn := none, schedule := s.schedule.settle task outcome }

/-- Lets a task go on with the outcome of a promise. -/
def resume (s : Session) (task : Nat) (frames : List Frame) : Outcome → Session
  | .ok values => { s with turn := some { task, frames, values } }
  | .error fault => s.finish task (.error fault)

/-- Moves a task on, with the frames that it still has after this step. -/
def move (s : Session) (task : Nat) (rest : List Frame) : Move → Session
  | .go frames values => { s with turn := some { task, frames := frames ++ rest, values } }
  | .yield frames =>
    { s with turn := none, schedule := s.schedule.yield task (frames ++ rest) }
  | .fail fault => s.finish task (.error fault)
  | .await promise frames =>
    match s.schedule.outcome? promise with
    | some outcome => s.resume task (frames ++ rest) outcome
    | none =>
      let schedule := s.schedule.suspend task (frames ++ rest)
      { s with turn := none, schedule := schedule.watch promise (.resume task) }

/-- Reports on the behaviour of a state that has ended. -/
def reportBehavior (s : Session) (name : Value) (id : Nat) : Session :=
  let s := { s with tracked := s.tracked.erase id }
  match s.schedule.outcome? id with
  | some (.error fault) =>
    s.log { Record.interpreter Level.error
        ("Behavior of '" ++ s.plain name ++ "' failed: " ++ fault.message) with
      state := some (s.datum name), fault := some fault }
  | _ => s

def doJob (s : Session) : Job → Session
  | .run task =>
    { s with turn := some { task, frames := s.schedule.frames task, values := [] } }
  | .tell (.resume task) settled =>
    s.resume task (s.schedule.frames task) ((s.schedule.outcome? settled).getD (.ok []))
  | .tell (.member join) settled =>
    { s with schedule := s.schedule.report join settled }
  | .tell (.report name) settled => s.reportBehavior name settled

/-- One step of the session: of the task whose turn it is, or the next job. -/
def step (s : Session) : Option Session :=
  match s.turn with
  | some { task, frames := [], values } => some (s.finish task (.ok values))
  | some { task, frames := frame :: rest, values } =>
    let (s, move) := s.takeStep frame values
    some (s.move task rest move)
  | none =>
    match s.schedule.queue with
    | [] => none
    | job :: queue => some ({ s with schedule := { s.schedule with queue } }.doJob job)

/-- Takes steps until nothing is left to do, `fuel` at most. -/
def settle (s : Session) : Nat → Session
  | 0 => s
  | fuel + 1 =>
    match s.step with
    | none => s
    | some s => settle s fuel

/-- Gives the line of input that was asked for, or says that there is none. -/
def hear (s : Session) (line : Option String) : Session :=
  match s.asked with
  | none => s
  | some id =>
    { s with
      asked := none
      schedule := s.schedule.settle id (.ok (line.toList.map .text)) }

/-- Gives a line of input, and takes steps until nothing is left to do. -/
def listen (s : Session) (fuel : Nat) (line : Option String) : Session :=
  (s.hear line).settle fuel

/-- Gives lines of input one after the other, as long as they are asked for. After the
last line the input has ended. -/
def attend (s : Session) (fuel : Nat) : List (Option String) → Session
  | [] => if s.asked.isSome then s.listen fuel none else s
  | line :: rest => if s.asked.isSome then (s.listen fuel line).attend fuel rest else s

/-- Settles a deferred promise that is still open. -/
def answer (s : Session) (index : Nat) (outcome : Outcome) : Session × Bool :=
  match s.deferred[index]?.filter s.schedule.isPending with
  | none => (s, false)
  | some id => ({ s with schedule := s.schedule.settle id outcome }, true)

end Session

end Interaction
