import Interaction.Component.Basic
import Interaction.Registry
import Interaction.Machine
import Interaction.Schedule
/-!
A session: the machine, the coordinator of behaviour, the schedule of the work that
they started, and the trace of what happened.
-/

namespace Interaction

/-- What a task does next. It is given the values that the step before it handed
on. -/
inductive Frame where
  /-- Starts a call. `given` is a list that stands in for absent parameters. -/
  | invoke (config given : Value)
  | map (target : Target)
  | call (target : Target)
  | follow (config : Value)
  | mapItem (mapping : Value) (index : Nat) (value : Value)
  | materialize (config : Value)
  /-- Maps the parameters of a situation that a call has given. -/
  | arrange (config : Value)
  /-- Hands a situation over to the factory. Either the values are its parameters,
  or the only one of them as a whole is. -/
  | place (config : Value) (whole : Bool)
  | await (promise : Nat)
  | enterState (target : Value)
  | pause
  | act (action : Action) (request : Request)
  /-- Waits until the behaviour of all transitions has ended. -/
  | drain
  | ask
  /-- Handles the line that the step before it hands on. The input has ended if it
  hands on none. -/
  | hear
  | line (text : String)
  /-- Goes on to the next line, unless the one before it was the last. -/
  | onward
  | announce
  /-- Pauses the machine at the end of the session. -/
  | stop
  | stopped
  | fail (fault : Fault)
  deriving Inhabited

inductive Canned where
  | nothing
  | done
  | failed
  | defer
  | refuse
  deriving DecidableEq, Inhabited

inductive Behavior where
  | absent
  /-- A stand-in, with its answers for states and for transitions. -/
  | canned (state transition : Canned)
  | coordinated
  deriving DecidableEq, Inhabited

inductive Occurrence where
  | called (label : Option String) (method : String) (params : List Datum)
  | created (situation params : Datum)
  | refreshed (situation params : Datum)
  | stateExecuted (config : Datum)
  | transitionExecuted (config : Datum)
  | asked
  | reported (record : Record)
  deriving Inhabited

structure Turn where
  task : Nat
  frames : List Frame
  values : List Value
  deriving Inhabited

structure Session where
  store : Store := {}
  behavior : Behavior := .absent
  coordinator : Coordinator := {}
  /-- The machine, unless the coordinator works alone. -/
  machine : Option Machine := none
  schedule : Schedule Frame := {}
  turn : Option Turn := none
  /-- The behaviour of transitions that has not been reported on. -/
  tracked : List Nat := []
  /-- The promises that services left to be settled from outside. -/
  deferred : List Nat := []
  asked : Option Nat := none
  /-- What members of homes have been taken in as, by the names of both. -/
  taken : List ((String × String) × Loaded) := []
  /-- What happened, the latest first. -/
  trace : List Occurrence := []
  deriving Inhabited

namespace Session

def note (s : Session) (o : Occurrence) : Session :=
  { s with trace := o :: s.trace }

def log (s : Session) (r : Record) : Session :=
  s.note (.reported r)

def logAll (s : Session) (rs : List Record) : Session :=
  rs.foldl log s

def datum (s : Session) (v : Value) : Datum :=
  s.store.datum v

def plain (s : Session) (v : Value) : String :=
  (s.datum v).plain

def scheduled (s : Session) (f : Schedule Frame → Schedule Frame × Nat) : Session × Nat :=
  let (schedule, id) := f s.schedule
  ({ s with schedule }, id)

def spawn (s : Session) (frames : List Frame) : Session × Nat :=
  s.scheduled (·.spawn frames)

/-- A new task whose turn it is at once. -/
def begin (s : Session) (frames : List Frame) : Session × Nat :=
  let (s, id) := s.scheduled (·.add { origin := .task [] })
  ({ s with turn := some { task := id, frames, values := [] } }, id)

def settled (s : Session) (outcome : Outcome) : Session × Nat :=
  s.scheduled (·.settled outcome)

/-- A promise that is left to be settled from outside. -/
def defer (s : Session) : Session × Nat :=
  let (s, id) := s.scheduled (·.pending)
  ({ s with deferred := s.deferred ++ [id] }, id)

end Session

end Interaction
