import Interaction.Session.Basic
import Interaction.Validation
/-!
The operations that answer at once: executing configurations, and moving the
machine. Configurations are checked before any work is queued.
-/

namespace Interaction.Session

/-- Checks a call and queues it. `given` is a list that stands in for absent
parameters. -/
def callService (s : Session) (config given : Value) : Session × Except Fault Nat :=
  match s.coordinator.checkCall s.store config with
  | .error fault => (s, .error fault)
  | .ok () =>
    let (s, id) := s.spawn [.invoke config given]
    (s, .ok id)

def coordinateTransition (s : Session) (config : Value) : Session × Except Fault Nat :=
  if s.store.isMapping config then s.callService config .null
  else
    let (s, id) := s.settled (.ok [])
    (s, .ok id)

def coordinateState (s : Session) (config : Value) : Session × Except Fault Nat :=
  if config.isNull then
    let s := s.log (.behavior Level.debug "State without behavior, nothing to materialize")
    let (s, id) := s.settled (.ok [])
    (s, .ok id)
  else
    match s.coordinator.checkState s.store config with
    | .error fault => (s, .error fault)
    | .ok () =>
      let (s, id) := s.spawn [.materialize config]
      (s, .ok id)

def answerCanned (s : Session) : Canned → Session × Except Fault (Option Nat)
  | .nothing => (s, .ok none)
  | .done =>
    let (s, id) := s.settled (.ok [])
    (s, .ok (some id))
  | .failed =>
    let (s, id) := s.settled (.error (.raised .value "stub failed"))
    (s, .ok (some id))
  | .defer =>
    let (s, id) := s.defer
    (s, .ok (some id))
  | .refuse => (s, .error (.raised .runtime "stub refuses"))

/-- Executes the configuration of a state. There may be nothing to wait for. -/
def executeState (s : Session) (config : Value) : Session × Except Fault (Option Nat) :=
  match s.behavior with
  | .absent => (s, .ok none)
  | .canned state _ => (s.note (.stateExecuted (s.datum config))).answerCanned state
  | .coordinated =>
    let (s, answer) := s.coordinateState config
    (s, answer.map some)

/-- Executes the configuration of a transition. There may be nothing to wait
for. -/
def executeTransition (s : Session) (config : Value) : Session × Except Fault (Option Nat) :=
  match s.behavior with
  | .absent => (s, .ok none)
  | .canned _ transition =>
    (s.note (.transitionExecuted (s.datum config))).answerCanned transition
  | .coordinated =>
    let (s, answer) := s.coordinateTransition config
    (s, answer.map some)

/-- Keeps track of the behaviour of a state until it has ended. -/
def track (s : Session) (id : Nat) (name : Value) : Session :=
  { s with
    tracked := if s.tracked.contains id then s.tracked else s.tracked ++ [id]
    schedule := s.schedule.watch id (.report name) }

/-- The steps that wait for what a transition has answered. -/
def afterTransition (answer : Option Nat) : Frame :=
  match answer with
  | some id => .await id
  | none => .fail (.notAwaitable Scalar.null.kind)

/-- Executes what an entrance asks for: the configuration of the transition, and
the one of the state once that has ended. -/
def perform (s : Session) (e : Entrance) : Session × Except Fault Unit :=
  let name := s.store.field e.target "name"
  if s.behavior = .absent then (s, .ok ())
  else if s.store.truthy e.config then
    match s.executeTransition e.config with
    | (s, .error fault) => (s, .error fault)
    | (s, .ok answer) =>
      let (s, id) := s.spawn [afterTransition answer, .enterState e.target]
      (s.track id name, .ok ())
  else
    match s.executeState (s.store.field e.target "do") with
    | (s, .error fault) => (s, .error fault)
    | (s, .ok none) => (s, .ok ())
    | (s, .ok (some id)) => (s.track id name, .ok ())

/-- Performs what the machine hands on, if anything. -/
def performAny (s : Session) : Option Entrance → Session × Except Fault Unit
  | none => (s, .ok ())
  | some e => s.perform e

def load (s : Session) (model : Value) : Session × Except Fault Bool :=
  match s.machine with
  | none => (s, .ok false)
  | some m =>
    let (m, records, answer) := m.load s.store model
    ({ s with machine := some m }.logAll records, answer)

def setRunning (s : Session) (on : Bool) : Session × Except Fault Unit :=
  match s.machine with
  | none => (s, .ok ())
  | some m =>
    let (m, records, entrance) := m.setRunning s.store on
    ({ s with machine := some m }.logAll records).performAny entrance

def reset (s : Session) : Session :=
  match s.machine with
  | none => s
  | some m =>
    let (m, records) := m.reset s.store
    { s with machine := some m }.logAll records

def fire (s : Session) (name : Value) : Session × Except Fault Unit :=
  match s.machine with
  | none => (s, .error (.noMember Scalar.null.kind "execute_event"))
  | some m =>
    let (m, records, answer) := m.fire s.store name
    let s := { s with machine := some m }.logAll records
    match answer with
    | .error fault => (s, .error fault)
    | .ok entrance => s.performAny entrance

end Interaction.Session
