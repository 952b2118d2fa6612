import Interaction.Session.Behavior
/-!
Calls of the methods of services.
-/

namespace Interaction

/-- What a service gives back at once when it is called. -/
inductive Reply where
  | promise (id : Nat)
  /-- Steps that are still to be taken by the caller. -/
  | steps (frames : List Frame)
  | plain (v : Value)
  | fault (f : Fault)
  deriving Inhabited

namespace Session

def act (s : Session) (action : Action) (request : Request) : Session × Except Fault Value :=
  match action with
  | .compute run =>
    let calls := s.coordinator.counts[request.counter]?.getD 0
    let (store, answer) := run s.store { request with calls }
    ({ s with store }, answer)
  | .fire event =>
    match s.fire (event.getD request.first) with
    | (s, .error fault) => (s, .error fault)
    | (s, .ok ()) => (s, .ok request.first)
  | .defer => (s, .ok .null)

/-- The steps of a method that waits before it acts. -/
def lateSteps (turns : Nat) (action : Action) (request : Request) : List Frame :=
  List.replicate turns .pause ++ [.act action request]

/-- Counts and records a call, and describes it for the method. -/
def beginCall (s : Session) (place : Nat) (m : Method) (params : List Value) :
    Session × Request :=
  let coordinator := s.coordinator.count m.counter
  ({ s with coordinator }.note
      (.called (coordinator.service place).label m.label (params.map s.datum)),
    { method := m.label, params, counter := m.counter, context := coordinator.context })

/-- Whether an answer is the end of an iteration, which no promise takes. -/
def stops : Except Fault Value → Bool
  | .error fault => fault.isStop
  | .ok _ => false

/-- Hands an answer over to a promise. -/
def promised (s : Session) (answer : Except Fault Value) : Session × Reply :=
  if stops answer then (s, .fault .unpromised)
  else
    let (s, id) := s.settled (answer.map fun v => [v])
    (s, .promise id)

/-- Calls a method whose end is handed over to a promise. -/
def callWrapped (s : Session) (script : Script) (request : Request) : Session × Reply :=
  match script.action, script.turns with
  | .defer, _ =>
    let (s, id) := s.defer
    (s, .promise id)
  | action, some turns =>
    let (s, id) := s.spawn (lateSteps turns action request)
    (s, .promise id)
  | action, none =>
    let (s, answer) := s.act action request
    s.promised answer

/-- Calls a method and gives on what it gives. -/
def callDirect (s : Session) (script : Script) (request : Request) : Session × Reply :=
  match script.action, script.turns with
  | .defer, _ =>
    let (s, id) := s.defer
    (s, .promise id)
  | action, some turns => (s, .steps (lateSteps turns action request))
  | action, none =>
    match s.act action request with
    | (s, .ok v) => (s, .plain v)
    | (s, .error fault) => (s, .fault fault)

def checkName (s : Session) (name : Value) : Except Fault Unit :=
  match s.store.container? name with
  | some kind => .error (.noKey kind)
  | none => .ok ()

def expose (s : Session) (place : Nat) (name : Value) (label : String) (script : Script) :
    Session × Except Fault Unit :=
  match s.checkName name with
  | .error fault => (s, .error fault)
  | .ok () =>
    let coordinator := s.coordinator.expose place { name, label, script }
    let s := { s with coordinator }
    let message := (coordinator.service place).kind ++ " provides '" ++ s.plain name ++ "'"
    (s.log (.service Level.debug message), .ok ())

/-- Takes in a service without methods, and then provides the methods one by one. -/
def addService (s : Session) (service : Service) (methods : List (String × Script)) :
    Session × Nat :=
  let (coordinator, place) := s.coordinator.addService service
  (methods.foldl (fun s (name, script) => (s.expose place (.text name) name script).1)
    { s with coordinator }, place)

def register (s : Session) (name : Value) (place : Option Nat) : Session × Except Fault Unit :=
  match s.coordinator.register name place with
  | .error cause => (s, .error (.registration cause))
  | .ok (coordinator, record) => ({ s with coordinator }.log record, .ok ())

def provides (s : Session) (place : Nat) (name : Value) : Except Fault Bool := do
  let service := s.coordinator.service place
  s.checkName name
  match service.provides? name with
  | none => throw (service.nature.lack "provides")
  | some answer => return answer

def execute (s : Session) (place : Nat) (name : Value) (params : List Value) :
    Session × Reply :=
  let service := s.coordinator.service place
  match service.execution, s.checkName name, service.method? name with
  | .missing, _, _ => (s, .fault (service.nature.lack "execute"))
  | .inert kind, _, _ => (s, .fault (.notCallable kind))
  | _, .error fault, _ => (s, .fault fault)
  | _, _, none => (s, .fault (.noMethod (s.plain name)))
  | .wrapped, _, some m =>
    let (s, request) := s.beginCall place m params
    s.callWrapped m.script request
  | .direct, _, some m =>
    let (s, request) := s.beginCall place m params
    s.callDirect m.script request

end Session

end Interaction
