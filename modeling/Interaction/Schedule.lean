import Interaction.Value
import Interaction.Fault
/-!
Promises and the queue of what is to be done next. Jobs are done in the order in
which they were queued; when a promise is settled, those who wait for it are queued
in the order in which they came.
-/

namespace Interaction

/-- What work ends with: the values that it hands on, or a fault. -/
abbrev Outcome := Except Fault (List Value)

/-- Who is told that a promise is settled. -/
inductive Waiter where
  /-- A task that goes on with the outcome. -/
  | resume (task : Nat)
  | member (join : Nat)
  /-- The report on the behaviour of a state, by the state's name. -/
  | report (name : Value)
  deriving Inhabited

inductive Job where
  /-- A task goes on. -/
  | run (task : Nat)
  /-- A waiter is told that a promise is settled. -/
  | tell (waiter : Waiter) (settled : Nat)
  deriving Inhabited

inductive Origin (φ : Type) where
  /-- Someone outside. -/
  | outside
  /-- The end of a task, which still has these steps before it. -/
  | task (frames : List φ)
  /-- The end of all members, or unless it is patient the first failure of one.
  `left` members have not reported yet. -/
  | join (members : List Nat) (left : Nat) (patient : Bool)
  deriving Inhabited

/-- An outcome that may still be to come. -/
structure Promise (φ : Type) where
  origin : Origin φ
  outcome : Option Outcome := none
  waiters : List Waiter := []
  deriving Inhabited

structure Schedule (φ : Type) where
  promises : Array (Promise φ) := #[]
  queue : List Job := []
  deriving Inhabited

namespace Schedule

variable {φ : Type}

def add (s : Schedule φ) (p : Promise φ) : Schedule φ × Nat :=
  ({ s with promises := s.promises.push p }, s.promises.size)

def pending (s : Schedule φ) : Schedule φ × Nat :=
  s.add { origin := .outside }

def settled (s : Schedule φ) (outcome : Outcome) : Schedule φ × Nat :=
  s.add { origin := .outside, outcome := some outcome }

def spawn (s : Schedule φ) (frames : List φ) : Schedule φ × Nat :=
  let (s, id) := s.add { origin := .task frames }
  ({ s with queue := s.queue ++ [.run id] }, id)

def outcome? (s : Schedule φ) (id : Nat) : Option Outcome :=
  s.promises[id]?.bind (·.outcome)

def isPending (s : Schedule φ) (id : Nat) : Bool :=
  (s.outcome? id).isNone

def update (s : Schedule φ) (id : Nat) (f : Promise φ → Promise φ) : Schedule φ :=
  { s with promises := s.promises.modify id f }

/-- Settles a promise, once and for all, and queues those who wait for it. -/
def settle (s : Schedule φ) (id : Nat) (outcome : Outcome) : Schedule φ :=
  match s.promises[id]? with
  | some { outcome := none, waiters, .. } =>
    let s := s.update id fun p => { p with outcome := some outcome, waiters := [] }
    { s with queue := s.queue ++ waiters.map fun w => .tell w id }
  | _ => s

/-- Lets someone wait for a promise. If it is settled already, they are queued. -/
def watch (s : Schedule φ) (id : Nat) (waiter : Waiter) : Schedule φ :=
  if s.isPending id then s.update id fun p => { p with waiters := p.waiters ++ [waiter] }
  else { s with queue := s.queue ++ [.tell waiter id] }

def frames (s : Schedule φ) (task : Nat) : List φ :=
  match (s.promises[task]?).map Promise.origin with
  | some (.task frames) => frames
  | _ => []

/-- Suspends a task before the steps that it still has before it. -/
def suspend (s : Schedule φ) (task : Nat) (frames : List φ) : Schedule φ :=
  s.update task fun p => { p with origin := .task frames }

def yield (s : Schedule φ) (task : Nat) (frames : List φ) : Schedule φ :=
  let s := s.suspend task frames
  { s with queue := s.queue ++ [.run task] }

/-- A promise that is settled when all members are. -/
def join (s : Schedule φ) (members : List Nat) (patient : Bool) : Schedule φ × Nat :=
  if members.isEmpty then s.settled (.ok [])
  else
    let (s, id) := s.add { origin := .join members members.length patient }
    (members.foldl (fun s member => s.watch member (.member id)) s, id)

def gathered (s : Schedule φ) (members : List Nat) : List Value :=
  members.flatMap fun member =>
    match s.outcome? member with
    | some (.ok vs) => vs
    | _ => []

/-- Tells a join that one of its members is settled. -/
def report (s : Schedule φ) (join member : Nat) : Schedule φ :=
  match (s.promises[join]?).map Promise.origin with
  | some (.join members left patient) =>
    let s := s.update join fun p => { p with origin := .join members (left - 1) patient }
    match patient, s.outcome? member with
    | false, some (.error fault) => s.settle join (.error fault)
    | _, _ => if left = 1 then s.settle join (.ok (s.gathered members)) else s
  | _ => s

end Schedule

end Interaction
