import Interaction.Store
import Interaction.Log.Record
/-!
The state machine of an interaction model. It only knows states and transitions;
what is to be done on entering a state is handed on as an entrance, so the machine
takes its course whatever becomes of that.
-/

namespace Interaction

/-- A transition that was performed: the names of the state before, of the state
after, and of the event. -/
structure Passage where
  source : Value
  target : Value
  event : Value
  deriving Inhabited

/-- A state that is entered, and the configuration of the transition into it. -/
structure Entrance where
  target : Value
  config : Value := .null
  event : Value := .null
  deriving Inhabited

structure Machine where
  model : Option Value := none
  index : Entries := []
  current : Option Value := none
  running : Bool := false
  /-- How many transitions are remembered, if there is a bound. -/
  limit : Option Nat := some 100
  history : List Passage := []
  deriving Inhabited

namespace Machine

/-- How many transitions a setting lets the machine remember. Null is no bound. -/
def limitOf (s : Store) : Value → Except Fault (Option Nat)
  | .null => .ok none
  | .bool b => .ok (some (if b then 1 else 0))
  | .int n =>
    if 0x8000000000000000 ≤ n || n < -0x8000000000000000 then
      .error (.tooLarge "the history is too long")
    else if n < 0 then .error (.badValue "maxlen must be non-negative")
    else .ok (some n.toNat)
  | v => .error (.wrongKind ("an integer is required, not " ++ s.kind v))

def nameOf (s : Store) (state : Option Value) : Value :=
  match state with
  | none => .null
  | some state => s.field state "name"

def plain (s : Store) (v : Value) : String :=
  (s.datum v).plain

/-- Puts the states under their names. The first of several states of one name
counts. A name that cannot be a key ends the work. -/
def indexStates (s : Store) (index : Entries) : List Value → Entries × Option Fault
  | [] => (index, none)
  | state :: rest =>
    if s.isMapping state then
      let name := s.field state "name"
      match s.container? name with
      | some kind => (index, some (.noKey kind))
      | none => indexStates s (index.putNew name state) rest
    else indexStates s index rest

/-- The states of a model, if it is one. -/
def statesOf (s : Store) (model : Value) : Except String (List Value) :=
  if !s.isMapping model then .error "Rejected model: expected a mapping"
  else
    match s.items? (s.field model "states") with
    | none | some [] => .error "Rejected model: 'states' must be a non-empty sequence"
    | some states => .ok states

/-- Loads a model while paused. The current state is kept. -/
def load (m : Machine) (s : Store) (model : Value) : Machine × List Record × Except Fault Bool :=
  if m.running then
    (m, [.interpreter Level.warning "Cannot load a model while running"], .ok false)
  else
    match statesOf s model with
    | .error reason => (m, [.interpreter Level.warning reason], .ok false)
    | .ok states =>
      let (index, fault) := indexStates s [] states
      let loaded := { m with model := some model, index := index }
      match fault with
      | some fault => (loaded, [], .error fault)
      | none =>
        (loaded, [.interpreter Level.info ("Model loaded: " ++ toString index.length ++
          " states, initial '" ++ plain s (s.field model "initial") ++ "'")], .ok true)

def remember (limit : Option Nat) (history : List Passage) : List Passage :=
  match limit with
  | none => history
  | some n => history.drop (history.length - n)

/-- Performs a transition: the state changes at once. -/
def enter (m : Machine) (s : Store) (e : Entrance) : Machine × Record :=
  let source := nameOf s m.current
  let target := nameOf s (some e.target)
  ({ m with
      current := some e.target
      history := remember m.limit (m.history ++ [⟨source, target, e.event⟩]) },
    { Record.interpreter Level.info
        ("State: " ++ plain s source ++ " → " ++ plain s target) with
      state := some (s.datum target) })

/-- The state that a name stands for. Only texts name states that are entered. -/
def state? (m : Machine) : Value → Option Value
  | .text name => m.index.get? (.text name)
  | _ => none

/-- Runs the machine: the first time it enters the initial state, and after a pause
it goes on in the state where it was. -/
def run (m : Machine) (s : Store) : Machine × List Record × Option Entrance :=
  match m.running, m.model, m.current with
  | true, _, _ | _, none, _ => (m, [], none)
  | false, some _, some state =>
    ({ m with running := true },
      [.interpreter Level.info
        ("Interpreter resumed in '" ++ plain s (nameOf s (some state)) ++ "'")], none)
  | false, some model, none =>
    let initial := s.field model "initial"
    match m.state? initial with
    | some state =>
      let entrance : Entrance := { target := state }
      let (m, record) := { m with running := true }.enter s entrance
      (m, [record], some entrance)
    | none =>
      (m, [.interpreter Level.warning
        ("Initial state '" ++ plain s initial ++ "' is not defined")], none)

def pause (m : Machine) (s : Store) : Machine × List Record :=
  ({ m with running := false },
    if m.running then
      [.interpreter Level.info
        ("Interpreter paused in '" ++ plain s (nameOf s m.current) ++ "'")]
    else [])

def setRunning (m : Machine) (s : Store) (on : Bool) :
    Machine × List Record × Option Entrance :=
  if on then m.run s
  else
    let (m, records) := m.pause s
    (m, records, none)

def reset (m : Machine) (s : Store) : Machine × List Record :=
  if m.running then (m, [])
  else
    ({ m with current := none },
      match m.current with
      | none => []
      | some state =>
        [.interpreter Level.info
          ("Interpreter reset from '" ++ plain s (nameOf s (some state)) ++ "'")])

def hasName (s : Store) (event name : Value) : Except Fault Bool :=
  if s.isMapping event then s.equal (s.field event "on") name else .ok false

/-- Where the first event of a name leads that leads anywhere. -/
def leadsTo? (m : Machine) (s : Store) (name : Value) :
    List Value → Except Fault (Option Entrance)
  | [] => .ok none
  | event :: rest => do
    match ← hasName s event name, m.state? (s.field event "goto") with
    | true, some state =>
      return some { target := state, config := s.field event "do", event := name }
    | _, _ => leadsTo? m s name rest

def eventsOf (s : Store) (state : Value) : Except Fault (List Value) :=
  let events := s.field state "events"
  if s.truthy events then
    match s.members? events with
    | some events => .ok events
    | none => .error (.notIterable (s.kind events))
  else .ok []

/-- Fires an event on the current state while running. Unknown events are passed
over. -/
def fire (m : Machine) (s : Store) (name : Value) :
    Machine × List Record × Except Fault (Option Entrance) :=
  match m.running, m.current with
  | false, _ | _, none => (m, [], .ok none)
  | true, some state =>
    match eventsOf s state with
    | .error fault => (m, [], .error fault)
    | .ok events =>
      match m.leadsTo? s name events with
      | .error fault => (m, [], .error fault)
      | .ok (some entrance) =>
        let (m, record) := m.enter s entrance
        (m, [record], .ok (some entrance))
      | .ok none =>
        (m, [.interpreter Level.debug
          ("Event '" ++ plain s name ++ "' does not lead anywhere from '" ++
            plain s (nameOf s (some state)) ++ "'")], .ok none)

end Machine

end Interaction
