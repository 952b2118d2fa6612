import Interaction.Proofs.Evaluation
import Interaction.Proofs.QuietServices

/-! Calls as one sequence of actions. A call is evaluated on a session from beginning to end: the
parameters that another call gives, the call that maps one of them, the method itself, and the call
that maps its result, each of them on what those before it have left. What a task still has before
it unfolds step by step to that. -/

namespace Interaction

/-- A session after some work on it, and what the work has come to: nothing if its answer is left to
someone outside. -/
structure Ending where
  session : Session
  outcome : Option Outcome

/-- Goes on with the values that the work hands on, if it does. -/
def Ending.andThen (e : Ending) (next : Session → List Value → Ending) : Ending :=
  match e.outcome with
  | some (.ok values) => next e.session values
  | _ => e

inductive Reception where
  | refused (fault : Fault)
  | given (outcome : Outcome)
  /-- The method acts some turns later, in a task of its own or in that of the caller. -/
  | late (own : Bool) (turns : Nat) (action : Action) (request : Request)
  | left

def Reception.promised (answer : Except Fault Value) : Reception :=
  if Session.stops answer then .refused .unpromised else .given (answer.map fun v => [v])

theorem Reception.promised_cases (answer : Except Fault Value) :
    (∃ fault, Reception.promised answer = .refused fault) ∨ ∃ outcome, Reception.promised answer = .given outcome := by
  unfold Reception.promised
  split
  · exact Or.inl ⟨_, rfl⟩
  · exact Or.inr ⟨_, rfl⟩

def Coordinator.Prompt (c : Coordinator) : Prop :=
  ∀ place, ∀ m ∈ (c.service place).methods, m.script.action ≠ .defer

theorem Coordinator.Prompt.congr {c d : Coordinator} (prompt : c.Prompt) (services : d.services = c.services) : d.Prompt := by
  intro place m member
  rw [Coordinator.service, services] at member
  exact prompt place m member

namespace Session

/-- What can be seen of a session apart from the work that is under way. -/
def scene (s : Session) : Session where
  store := s.store
  behavior := s.behavior
  coordinator := s.coordinator
  machine := s.machine
  trace := s.trace

def launch (s : Session) (own : Bool) (script : Script) (request : Request) : Session × Reception :=
  match script.action, script.turns with
  | .defer, _ => (s, .left)
  | action, some turns => (s, .late own turns action request)
  | action, none =>
    match s.act action request, own with
    | (s, answer), true => (s, .promised answer)
    | (s, .ok v), false => (s, .refused (.notAwaitable (s.store.kind v)))
    | (s, .error fault), false => (s, .refused fault.ofTask)

/-- Calls a method, up to where it waits for anything. -/
def receive (s : Session) (target : Target) (values : List Value) : Session × Reception :=
  let s := s.announceCall target values
  let service := s.coordinator.service target.service
  match service.execution, service.method? (.text target.method) with
  | .missing, _ => (s, .refused (service.nature.lack "execute"))
  | .inert kind, _ => (s, .refused (.notCallable kind))
  | _, none => (s, .refused (.noMethod (s.plain (.text target.method))))
  | execution, some m =>
    let (s, request) := s.beginCall target.service m values
    s.launch (execution = .wrapped) m.script request

def serve (s : Session) (target : Target) (values : List Value) : Ending :=
  match s.receive target values with
  | (s, .refused fault) => ⟨s, some (.error fault)⟩
  | (s, .given outcome) => ⟨s, some outcome⟩
  | (s, .late _ _ action request) =>
    let (s, answer) := s.act action request
    ⟨s, some (lateOutcome answer)⟩
  | (s, .left) => ⟨s, none⟩

section Sequence

variable (eval : Session → Value → List Value → Ending)

def supply (s : Session) (config : Value) (given : List Value) : Ending :=
  match s.store.source (s.store.field config "parameters") with
  | .literal items => ⟨s, some (s.store.resolveItems s.coordinator.context items)⟩
  | .derived inner => eval s inner []
  | .absent => ⟨s, some (.ok given)⟩

def mapOne (s : Session) (mapping : Value) (index : Nat) (value : Value) : Ending :=
  match s.store.mappedCall? mapping index with
  | some config => eval s config [value]
  | none => ⟨s, some (.ok [value])⟩

def mapAll (mapping : Value) : Session → Nat → List Value → Ending
  | s, _, [] => ⟨s, some (.ok [])⟩
  | s, index, value :: rest =>
    (s.mapOne eval mapping index value).andThen fun s first =>
      (mapAll mapping s (index + 1) rest).andThen fun s others => ⟨s, some (.ok (first ++ others))⟩

def adopt (s : Session) (config : Value) (values : List Value) : Ending :=
  let result := s.store.field config "resultMapping"
  if s.store.isMapping result then eval s result values else ⟨s, some (.ok values)⟩

end Sequence

/-- Evaluates a call from beginning to end. `given` stand in for absent parameters, and `depth`
bounds how deep calls are nested. -/
def evaluate : Nat → Session → Value → List Value → Ending
  | 0, s, _, _ => ⟨s, some (.error .endless)⟩
  | depth + 1, s, config, given =>
    match s.coordinator.target s.store config with
    | .error fault => ⟨s, some (.error fault)⟩
    | .ok target =>
      (s.supply (evaluate depth) config given).andThen fun s values =>
        (s.mapAll (evaluate depth) (s.store.field config "parameterMapping") 0 values).andThen fun s values =>
          (s.serve target values).andThen fun s values => s.adopt (evaluate depth) config values

section Closing

variable {s t : Session} {e : Ending} {eval : Session → Value → List Value → Ending}

/-- Whether work on a session leaves the services as they are, and ends with an outcome unless one of
them leaves its answer to someone outside. -/
structure Closes (s : Session) (e : Ending) : Prop where
  services : e.session.coordinator.services = s.coordinator.services
  prompt : s.coordinator.Prompt → e.outcome ≠ none

theorem Closes.andThen {next : Session → List Value → Ending} (closes : s.Closes e)
    (later : ∀ (t : Session) values, t.Closes (next t values)) : s.Closes (e.andThen next) := by
  unfold Ending.andThen
  split
  next values _ =>
    obtain ⟨services, ends⟩ := later e.session values
    exact ⟨services.trans closes.services, fun prompt => ends (prompt.congr closes.services)⟩
  · exact closes

theorem Closes.done (s : Session) (outcome : Outcome) : s.Closes ⟨s, some outcome⟩ :=
  ⟨rfl, fun _ => nofun⟩

theorem receive_cases (s : Session) (target : Target) (values : List Value) :
    (∃ fault, s.receive target values = (s.announceCall target values, .refused fault)) ∨
      ∃ m ∈ (s.coordinator.service target.service).methods, ∃ own, s.receive target values =
        ((s.announceCall target values).beginCall target.service m values).1.launch own m.script
          ((s.announceCall target values).beginCall target.service m values).2 := by
  have services : (s.announceCall target values).coordinator = s.coordinator := rfl
  unfold receive
  rw [← services]
  generalize s.announceCall target values = u
  dsimp only
  cases found : (u.coordinator.service target.service).method? (.text target.method) with
  | none => cases (u.coordinator.service target.service).execution <;> exact Or.inl ⟨_, rfl⟩
  | some m =>
    have member := List.mem_of_find?_eq_some found
    cases (u.coordinator.service target.service).execution
    case missing | inert => exact Or.inl ⟨_, rfl⟩
    case wrapped | direct => exact Or.inr ⟨m, member, _, rfl⟩

theorem receive_services (s : Session) (target : Target) (values : List Value) :
    (s.receive target values).1.coordinator.services = s.coordinator.services ∧
      (s.coordinator.Prompt → (s.receive target values).2 ≠ .left) := by
  rcases s.receive_cases target values with ⟨fault, received⟩ | ⟨m, member, own, received⟩
  · rw [received]
    exact ⟨rfl, fun _ => nofun⟩
  · have begun : ((s.announceCall target values).beginCall target.service m values).1.coordinator.services =
        s.coordinator.services := rfl
    rw [received, ← begun]
    generalize ((s.announceCall target values).beginCall target.service m values).1 = u
    generalize ((s.announceCall target values).beginCall target.service m values).2 = request
    have acted := (Tames.act u m.script.action request).services
    unfold launch
    split
    next defers => exact ⟨rfl, fun prompt => absurd defers (prompt _ m member)⟩
    · exact ⟨rfl, fun _ => nofun⟩
    · split
      next t answer _ =>
        refine ⟨by simp_all, fun _ => ?_⟩
        rcases Reception.promised_cases answer with ⟨fault, same⟩ | ⟨outcome, same⟩ <;> simp [same]
      all_goals simp_all

theorem closes_serve (s : Session) (target : Target) (values : List Value) : s.Closes (s.serve target values) := by
  obtain ⟨services, ends⟩ := s.receive_services target values
  unfold serve
  generalize s.receive target values = result at *
  obtain ⟨t, reception⟩ := result
  cases reception with
  | refused fault | given outcome => exact ⟨services, fun _ => nofun⟩
  | late own turns action request => exact ⟨(Tames.act t action request).services.trans services, fun _ => nofun⟩
  | left => exact ⟨services, fun prompt => absurd rfl (ends prompt)⟩

theorem closes_supply (closes : ∀ (t : Session) config given, t.Closes (eval t config given)) (s : Session) (config : Value)
    (given : List Value) : s.Closes (s.supply eval config given) := by
  unfold supply
  split
  · exact .done ..
  · exact closes ..
  · exact .done ..

theorem closes_mapAll (closes : ∀ (t : Session) config given, t.Closes (eval t config given)) (mapping : Value) (s : Session) (index : Nat)
    (values : List Value) : s.Closes (s.mapAll eval mapping index values) := by
  induction values generalizing s index with
  | nil => exact .done ..
  | cons v rest ih =>
    have first (s : Session) : s.Closes (s.mapOne eval mapping index v) := by
      unfold mapOne
      split
      · exact closes ..
      · exact .done ..
    exact (first s).andThen fun t _ => (ih t (index + 1)).andThen fun u _ => .done u _

theorem closes_adopt (closes : ∀ (t : Session) config given, t.Closes (eval t config given)) (s : Session) (config : Value)
    (values : List Value) : s.Closes (s.adopt eval config values) := by
  unfold adopt
  dsimp only
  split
  · exact closes ..
  · exact .done ..

/-- Every evaluation ends, with an outcome unless a service leaves its answer to someone outside. -/
theorem closes_evaluate (depth : Nat) (s : Session) (config : Value) (given : List Value) :
    s.Closes (s.evaluate depth config given) := by
  induction depth generalizing s config given with
  | zero => exact .done ..
  | succ depth ih =>
    rw [evaluate]
    split
    · exact .done ..
    · refine (closes_supply ih s config given).andThen fun t values => ?_
      refine (closes_mapAll ih _ t 0 values).andThen fun u values => ?_
      exact (closes_serve u _ values).andThen fun w values => closes_adopt ih w config values

end Closing

section Scenery

variable {s t : Session}

/-- A session that looks like one, and has the work of another under way. -/
def under (t w : Session) : Session :=
  { w with
    store := t.store
    behavior := t.behavior
    coordinator := t.coordinator
    machine := t.machine
    trace := t.trace }

theorem under_of_scene (same : s.scene = t.scene) : t.under s = s := by
  cases s
  cases t
  simp only [scene, mk.injEq] at same
  obtain ⟨rfl, rfl, rfl, rfl, -, -, -, -, -, -, rfl⟩ := same
  rfl

/-- Whether an action starts no other work: it fires no event on a machine whose behaviour is
executed. -/
def Shelters (s : Session) (action : Action) : Prop :=
  action.isQuiet = true ∨ s.machine = none ∨ s.behavior = .absent

/-- Whether no method of a service starts other work. -/
def Secluded (s : Session) : Prop :=
  s.machine = none ∨ s.behavior = .absent ∨ s.coordinator.Quiet

theorem Secluded.shelters (secluded : s.Secluded) {place : Nat} {m : Method}
    (member : m ∈ (s.coordinator.service place).methods) : s.Shelters m.script.action := by
  rcases secluded with alone | absent | quiet
  · exact Or.inr (Or.inl alone)
  · exact Or.inr (Or.inr absent)
  · exact Or.inl (quiet place m member)

theorem logAll_under (t w : Session) (rs : List Record) : (t.under w).logAll rs = (t.logAll rs).under w := by
  rw [logAll_eq, logAll_eq]
  rfl

theorem performAny_absent (absent : t.behavior = .absent) (entrance : Option Entrance) : t.performAny entrance = (t, .ok ()) := by
  cases entrance with
  | none => rfl
  | some e => rw [performAny, perform, if_pos absent]

theorem fire_under (w : Session) (name : Value) (idle : t.machine = none ∨ t.behavior = .absent) :
    (t.under w).fire name = ((t.fire name).1.under w, (t.fire name).2) := by
  have machine : (t.under w).machine = t.machine := rfl
  have store : (t.under w).store = t.store := rfl
  unfold fire
  rw [machine, store]
  cases held : t.machine with
  | none => rfl
  | some m =>
    have absent : t.behavior = .absent := idle.resolve_left (by simp [held])
    have logged := logAll_under { t with machine := some (m.fire t.store name).1 } w (m.fire t.store name).2.1
    dsimp only
    cases (m.fire t.store name).2.2 with
    | error fault => exact congrArg (·, _) logged
    | ok entrance =>
      have still : ({ t with machine := some (m.fire t.store name).1 }.logAll (m.fire t.store name).2.1).behavior = .absent := by
        rw [logAll_eq]
        exact absent
      refine Eq.trans (congrArg (performAny · entrance) logged) ?_
      dsimp only
      rw [performAny_absent still, performAny_absent (t := Session.under _ w) still]

theorem act_under (w : Session) {action : Action} (shelters : t.Shelters action) (request : Request) :
    (t.under w).act action request = ((t.act action request).1.under w, (t.act action request).2) := by
  cases action with
  | compute run => rfl
  | defer => rfl
  | fire event =>
    have idle := shelters.resolve_left (by simp [Action.isQuiet])
    simp only [act, fire_under w _ idle]
    generalize t.fire (event.getD request.first) = result
    obtain ⟨u, answer⟩ := result
    cases answer <;> rfl

theorem secluded_congr (machine : s.machine = t.machine) (behavior : s.behavior = t.behavior)
    (services : s.coordinator.services = t.coordinator.services) (secluded : t.Secluded) : s.Secluded := by
  rw [Secluded, machine, behavior]
  exact secluded.imp_right (Or.imp_right (quiet_congr services))

theorem launch_under (w : Session) (own : Bool) {script : Script} (shelters : t.Shelters script.action) (request : Request) :
    (t.under w).launch own script request = ((t.launch own script request).1.under w, (t.launch own script request).2) := by
  have acted := act_under w shelters request
  unfold launch
  cases action : script.action <;> cases script.turns <;> simp only [action] at acted ⊢
  all_goals
    rw [acted]
    generalize t.act _ request = result
    obtain ⟨v, answer⟩ := result
    cases own <;> cases answer <;> rfl

theorem receive_under (w : Session) (secluded : t.Secluded) (target : Target) (values : List Value) :
    (t.under w).receive target values = ((t.receive target values).1.under w, (t.receive target values).2) := by
  have announced : (t.under w).announceCall target values = (t.announceCall target values).under w := rfl
  have secluded : (t.announceCall target values).Secluded := secluded
  unfold receive
  rw [announced]
  generalize t.announceCall target values = u at secluded ⊢
  have coordinator : (u.under w).coordinator = u.coordinator := rfl
  simp only [coordinator]
  cases found : (u.coordinator.service target.service).method? (.text target.method) with
  | none => cases (u.coordinator.service target.service).execution <;> rfl
  | some m =>
    have shelters : (u.beginCall target.service m values).1.Shelters m.script.action :=
      secluded.shelters (List.mem_of_find?_eq_some found)
    cases (u.coordinator.service target.service).execution with
    | missing => rfl
    | inert kind => rfl
    | _ => exact launch_under w _ shelters _

theorem callTarget_receive (s : Session) (target : Target) (values : List Value) :
    s.callTarget target values = match s.receive target values with
      | (t, .refused fault) => (t, .fail fault)
      | (t, .given outcome) => ((t.settled outcome).1, .await (t.settled outcome).2 [.follow target.config])
      | (t, .late true turns action request) =>
        ((t.spawn (lateSteps turns action request)).1,
          .await (t.spawn (lateSteps turns action request)).2 [.follow target.config])
      | (t, .late false turns action request) => (t, .go (lateSteps turns action request ++ [.follow target.config]) [])
      | (t, .left) => (t.defer.1, .await t.defer.2 [.follow target.config]) := by
  have named (u : Session) : u.checkName (.text target.method) = .ok () := rfl
  unfold callTarget receive execute
  generalize s.announceCall target values = u
  simp only [named]
  cases found : (u.coordinator.service target.service).method? (.text target.method) with
  | none => cases (u.coordinator.service target.service).execution <;> rfl
  | some m =>
    cases (u.coordinator.service target.service).execution with
    | missing => rfl
    | inert kind => rfl
    | wrapped =>
      simp only [callWrapped, launch, promised, Reception.promised, decide_true]
      cases m.script.action <;> cases m.script.turns <;> try rfl
      all_goals
        dsimp only
        generalize (u.beginCall target.service m values).1.act _ (u.beginCall target.service m values).2 = result
        obtain ⟨v, answer⟩ := result
        dsimp only
        cases stops answer <;> rfl
    | direct =>
      simp only [callDirect, launch]
      cases m.script.action <;> cases m.script.turns <;> try rfl
      all_goals
        dsimp only
        generalize (u.beginCall target.service m values).1.act _ (u.beginCall target.service m values).2 = result
        obtain ⟨v, answer⟩ := result
        cases answer <;> rfl

def Plain (s : Session) : Frame → Prop
  | .invoke _ _ | .follow _ | .mapItem _ _ _ => True
  | .act action _ => s.Shelters action
  | _ => False

theorem takeStep_under (w : Session) {frame : Frame} (plain : t.Plain frame) (values : List Value) :
    (t.under w).takeStep frame values = ((t.takeStep frame values).1.under w, (t.takeStep frame values).2) := by
  have store : (t.under w).store = t.store := rfl
  have coordinator : (t.under w).coordinator = t.coordinator := rfl
  cases frame with
  | invoke config given =>
    simp only [takeStep, invoke, fetch, store, coordinator]
    cases t.coordinator.target t.store config with
    | error fault => rfl
    | ok target =>
      dsimp only
      cases t.store.source (t.store.field config "parameters") with
      | literal items =>
        dsimp only
        cases t.store.resolveItems t.coordinator.context items <;> rfl
      | derived inner => rfl
      | absent => rfl
  | follow config =>
    simp only [takeStep, followCall, store]
    split <;> rfl
  | mapItem mapping index value =>
    simp only [takeStep, store]
    cases t.store.mappedCall? mapping index <;> rfl
  | act action request =>
    simp only [takeStep, act_under w plain]
    generalize t.act action request = result
    obtain ⟨v, answer⟩ := result
    cases answer <;> rfl
  | _ => exact plain.elim

end Scenery

end Session

end Interaction
