import Interaction.Service
import Interaction.Situation
import Interaction.Call
import Interaction.Log.Record
/-!
The registry of services, and the service that a call configuration aims at.
-/

namespace Interaction

/-- The method that a call configuration aims at, and the service that has it. -/
structure Target where
  service : Nat
  method : String
  config : Value
  deriving Inhabited

/-- What behaviour is executed with. Services are known by their places in
`services`; the default service is registered under the empty name. -/
structure Coordinator where
  services : Array Service := #[]
  counts : Array Nat := #[]
  registry : List (String × Nat) := []
  factory : Factory := .absent
  context : Value := .null
  /-- The configuration of the latest situation that was created. -/
  created : Option Value := none
  deriving Inhabited

namespace Coordinator

def addService (c : Coordinator) (service : Service) : Coordinator × Nat :=
  ({ c with
      services := c.services.push (service.numbered c.counts.size)
      counts := c.counts ++ Array.replicate service.methods.length 0 }, c.services.size)

/-- Provides a method of a service, with a new counter. -/
def expose (c : Coordinator) (place : Nat) (method : Method) : Coordinator :=
  { c with
    services := c.services.modify place (·.expose { method with counter := c.counts.size })
    counts := c.counts.push 0 }

def count (c : Coordinator) (counter : Nat) : Coordinator :=
  { c with counts := c.counts.modify counter (· + 1) }

def find? (c : Coordinator) (name : Option String) : Option Nat :=
  c.registry.lookup (name.getD "")

/-- The place of the service that a value names. A value that stands for nothing
names the default service. -/
def lookup (c : Coordinator) (s : Store) (name : Value) : Except Fault (Option Nat) :=
  match s.truthy name, s.container? name with
  | false, _ => .ok (c.find? none)
  | true, some kind => .error (.noKey kind)
  | true, none => .ok (name.text?.bind fun text => c.find? (some text))

def service (c : Coordinator) (place : Nat) : Service :=
  c.services[place]?.getD default

/-- Registers a service under a name of its own. -/
def register (c : Coordinator) (name : Value) (place : Option Nat) :
    Except RegistrationFault (Coordinator × Record) :=
  match name with
  | .text name =>
    if name.isEmpty then .error .noName
    else
      match place.filter fun place => (c.service place).isExecutable with
      | none => .error .noExecute
      | some place =>
        if (c.registry.lookup name).isSome then .error (.taken name)
        else .ok ({ c with registry := c.registry ++ [(name, place)] },
          .behavior Level.info ("Registered service '" ++ name ++ "' (" ++
            (c.service place).kind ++ ")"))
  | _ => .error .noName

def serviceName (s : Store) (config : Value) : Except Fault (Option String) :=
  match s.field config "service" with
  | .null => .ok none
  | .text name =>
    if name.isEmpty then .error (.configuration .badService) else .ok (some name)
  | _ => .error (.configuration .badService)

def methodName (s : Store) (config : Value) : Except Fault String :=
  match s.field config "name" with
  | .text name => if name.isEmpty then .error (.configuration .noName) else .ok name
  | _ => .error (.configuration .noName)

def target (c : Coordinator) (s : Store) (config : Value) : Except Fault Target := do
  if !s.isMapping config then throw (.configuration .notMapping)
  let method ← methodName s config
  let name ← serviceName s config
  match c.find? name with
  | none => throw (.configuration (.noService name))
  | some place =>
    match (c.service place).provides? (.text method) with
    | none => throw ((c.service place).nature.lack "provides")
    | some false => throw (.configuration (.notProvided name method))
    | some true => return { service := place, method, config }

end Coordinator

end Interaction
