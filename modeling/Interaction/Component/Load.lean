import Interaction.Component.Basic
import Interaction.Session.Call
/-!
Loading components into a session.
-/

namespace Interaction

namespace Session

/-- Takes in what is there or has been made. -/
def install (s : Session) : Product → Session × Loaded
  | .scalar x => (s, .value (.scalar x))
  | .texts items =>
    let (store, v) := s.store.add (.list (items.map .text))
    ({ s with store }, .value v)
  | .mapping =>
    let (store, v) := s.store.add (.map [])
    ({ s with store }, .value v)
  | .object nature => (s, .object nature)
  | .service service methods =>
    let (s, place) := s.addService service methods
    (s, .service place)
  | .factory factory => (s, .factory factory)

def natureOf (s : Session) : Loaded → Nature
  | .value v => { kind := s.store.kind v }
  | .object nature => nature
  | .service place => (s.coordinator.service place).nature
  | .factory factory => { kind := factory.kind }
  | .blueprint _ kind => { kind }

def kindOf (s : Session) (loaded : Loaded) : String :=
  (s.natureOf loaded).kind

def reportLoaded (s : Session) (a : Address) (loaded : Loaded) : Session :=
  s.log (.component Level.info
    ("Component '" ++ a.text ++ "' loaded (" ++ s.kindOf loaded ++ ")"))

/-- What the member at an address has been taken in as. -/
def taken? (s : Session) (a : Address) : Option Loaded :=
  s.taken.lookup (a.home, a.member)

/-- Takes in what the member at an address is. It stays what it is from then on. -/
def takeMember (s : Session) (a : Address) (product : Product) : Session × Loaded :=
  match s.taken? a with
  | some loaded => (s, loaded)
  | none =>
    let (s, loaded) := s.install product
    ({ s with taken := ((a.home, a.member), loaded) :: s.taken }, loaded)

/-- Takes in a component. From a blueprint an object is made, if that is asked
for. -/
def take (s : Session) (a : Address) (make : Bool) : Component → Session × Except Fault Loaded
  | .ready product =>
    let (s, loaded) := s.takeMember a product
    (s, .ok loaded)
  | .blueprint b =>
    if make then
      match b.made with
      | .error reason => (s, .error (.component (.noInstance a.text reason)))
      | .ok product =>
        let (s, loaded) := s.install product
        (s, .ok loaded)
    else (s, .ok (.blueprint b.name b.kind))

/-- Loads the component that a value refers to. -/
def loadComponent (s : Session) (homes : List Home) (reference : Value) (make : Bool) :
    Session × Except Fault Loaded :=
  match Address.ofValue s.store reference with
  | .error fault => (s, .error fault)
  | .ok a =>
    match Home.component homes a with
    | .error fault => (s, .error fault)
    | .ok component =>
      match s.take a make component with
      | (s, .error fault) => (s, .error fault)
      | (s, .ok loaded) => (s.reportLoaded a loaded, .ok loaded)

/-- A component in the role of a service, unless it is null. -/
def asService (s : Session) : Loaded → Session × Option Nat
  | .value .null => (s, none)
  | .service place => (s, some place)
  | loaded =>
    let (coordinator, place) := s.coordinator.addService { nature := s.natureOf loaded }
    ({ s with coordinator }, some place)

def asFactory (s : Session) : Loaded → Factory
  | .value .null => .absent
  | .factory factory => factory
  | loaded => .foreign (s.natureOf loaded)

end Session

end Interaction
