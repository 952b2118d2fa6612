import Interaction.Store
import Interaction.Fault
/-!
Services: objects whose methods are called by name. What a method does is given
as data, so that a session can be run again and reasoned about.
-/

namespace Interaction

/-- What a method sees of one call of it. -/
structure Request where
  method : String
  params : List Value
  counter : Nat
  /-- How many calls have been counted when the method acts. -/
  calls : Nat := 0
  context : Value
  deriving Inhabited

namespace Request

def first (r : Request) : Value :=
  r.params.head?.getD .null

end Request

inductive Action where
  /-- Works on the store and returns or fails. -/
  | compute (run : Store → Request → Store × Except Fault Value)
  /-- Fires an event, by default the one named by the first parameter, and returns
  the first parameter. -/
  | fire (event : Option Value)
  /-- Leaves the answer to be given later, from outside. -/
  | defer
  deriving Inhabited

/-- A method's action, and for how many turns of the schedule it waits before it
acts. Without such a number it acts during the call. -/
structure Script where
  action : Action
  turns : Option Nat := none
  deriving Inhabited

structure Method where
  name : Value
  label : String
  script : Script
  counter : Nat := 0
  deriving Inhabited

/-- How an object answers when it is asked whether it provides a method. -/
inductive Provision where
  | missing
  | everything
  | listed
  deriving DecidableEq, Inhabited

inductive Execution where
  | missing
  /-- Something that cannot be called is in the place of the function. -/
  | inert (kind : String)
  /-- The end of the method is handed over to a promise. -/
  | wrapped
  /-- What the method gives is given on as it is. -/
  | direct
  deriving DecidableEq, Inhabited

/-- An object in the role of a service. -/
structure Service where
  label : Option String := none
  nature : Nature
  provision : Provision := .missing
  execution : Execution := .missing
  methods : List Method := []
  deriving Inhabited

namespace Service

def kind (service : Service) : String :=
  service.nature.kind

def method? (service : Service) (name : Value) : Option Method :=
  service.methods.find? fun m => m.name.sameKey name

/-- Whether a method can be executed under the name, if the object can tell. -/
def provides? (service : Service) (name : Value) : Option Bool :=
  match service.provision with
  | .missing => none
  | .everything => some true
  | .listed => some (service.method? name).isSome

def isExecutable (service : Service) : Bool :=
  match service.execution with
  | .wrapped | .direct => true
  | .missing | .inert _ => false

/-- Puts a method under its name, in the place of one that is there already. -/
def exposeIn (methods : List Method) (method : Method) : List Method :=
  match methods with
  | [] => [method]
  | m :: rest =>
    if m.name.sameKey method.name then { method with name := m.name } :: rest
    else m :: exposeIn rest method

def expose (service : Service) (method : Method) : Service :=
  { service with methods := exposeIn service.methods method }

/-- Gives the methods counters of their own, numbered from `first` on. -/
def numbered (service : Service) (first : Nat) : Service :=
  { service with
    methods := service.methods.zipIdx.map fun (m, i) => { m with counter := first + i } }

end Service

namespace Store

def putEntry (s : Store) (mapping key value : Value) : Except Fault Store :=
  match s.container? key, mapping, s.entries? mapping with
  | some kind, _, _ => .error (.noKey kind)
  | none, .ref place, some entries => .ok (s.set place (.map (entries.put key value)))
  | none, _, _ => .ok s

/-- Takes an entry out of a mapping, and gives its value, null if there was none. -/
def takeEntry (s : Store) (mapping key : Value) : Except Fault (Store × Value) :=
  match s.container? key, mapping, s.entries? mapping with
  | some kind, _, _ => .error (.noKey kind)
  | none, .ref place, some entries =>
    .ok (s.set place (.map (entries.erase key)), (entries.get? key).getD .null)
  | none, _, _ => .ok (s, .null)

def push (s : Store) (list item : Value) : Except Fault Store :=
  match list, s.cell? list with
  | .ref place, some (.list items) => .ok (s.set place (.list (items ++ [item])))
  | _, _ => .error (.noMember (s.kind list) "append")

end Store

namespace Action

/-- An action that leaves the store as it is. -/
def give (f : Store → Request → Except Fault Value) : Action :=
  .compute fun s r => (s, f s r)

/-- An action that changes the store if it does not fail. -/
def change (f : Store → Request → Except Fault (Store × Value)) : Action :=
  .compute fun s r =>
    match f s r with
    | .ok (after, v) => (after, .ok v)
    | .error fault => (s, .error fault)

def echo : Action := give fun _ r => .ok r.first

def args : Action := change fun s r => .ok (s.add (.list r.params))

def constant (v : Value) : Action := give fun _ _ => .ok v

/-- Returns the list of the parameters together with the name of the method. -/
def wrap : Action := change fun s r =>
  let (s, list) := s.add (.list r.params)
  .ok (s.add (.map [(.text "a", list), (.text "m", .text r.method)]))

/-- Returns the value that comes at the latest of the calls that have been counted. -/
def inTurn (values : List Value) : Action := give fun _ r =>
  match values[r.calls - 1]? with
  | some v => .ok v
  | none => .error (.raised .runtime "sequence exhausted")

def fail (failure : Failure) (message : String) : Action :=
  give fun _ _ => .error (.raised failure message)

/-- Writes the first parameter into the data context, and returns it. -/
def put (key : Value) : Action := change fun s r => do
  let s ← s.putEntry r.context key r.first
  return (s, r.first)

/-- Writes the second parameter into the data context under the first. -/
def set : Action := change fun s r =>
  match r.params with
  | [] => .error .noParameter
  | key :: rest => do
    let v := rest.head?.getD .null
    let s ← s.putEntry r.context key v
    return (s, v)

/-- Reads an entry of the data context, by default the one under the first
parameter. -/
def get (key : Option Value) : Action := give fun s r =>
  let key := key.getD r.first
  match s.container? key with
  | some kind => .error (.noKey kind)
  | none => .ok (s.get r.context key)

/-- Takes an entry out of the data context. -/
def take (key : Value) : Action := change fun s r => s.takeEntry r.context key

/-- Adds the second parameter to the list that is the first, and returns it. -/
def push : Action := change fun s r =>
  match r.params with
  | list :: item :: _ => do
    let s ← s.push list item
    return (s, list)
  | _ => .error .noParameter

end Action

end Interaction
