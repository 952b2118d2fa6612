import Interaction.Proofs.Effects
import Interaction.Proofs.Outline

/-! What changes the outline of a session: an operation of the machine with the behaviour that
this asks for, a task that enters a state, and a task that hands over a situation. Whatever
happens to a session passes one of these at most. -/

namespace Interaction

inductive Operation where
  | load (model : Value)
  | setRunning (on : Bool)
  | reset
  | fire (name : Value)
  deriving Inhabited

/-- The machine after an operation, what is reported, and what is to be entered. -/
def Machine.operate (m : Machine) (s : Store) : Operation → Machine × List Record × Except Fault (Option Entrance)
  | .load model => ((m.load s model).1, (m.load s model).2.1, (m.load s model).2.2.map fun _ => none)
  | .setRunning on => ((m.setRunning s on).1, (m.setRunning s on).2.1, .ok (m.setRunning s on).2.2)
  | .reset => ((m.reset s).1, (m.reset s).2, .ok none)
  | .fire name => m.fire s name

theorem Machine.records_operate (m : Machine) (s : Store) (o : Operation) : ∀ r ∈ (m.operate s o).2.1, r.isFailure = false := by
  have one {r record : Record} (member : r ∈ [record]) (quiet : record.isFailure = false) : r.isFailure = false :=
    List.mem_singleton.mp member ▸ quiet
  intro r member
  -- Whichever branch an operation takes, it reports nothing or one thing.
  rcases o with model | on | _ | name <;>
    simp only [operate, Machine.load, Machine.setRunning, Machine.run, Machine.pause, Machine.reset, Machine.fire] at member
  all_goals
    repeat' split at member
    all_goals first | cases member; done | exact one member rfl

def Machine.entrance? (m : Machine) (s : Store) (o : Operation) : Option Entrance :=
  match (m.operate s o).2.2 with
  | .ok entrance => entrance
  | .error _ => none

/-- A task that waits for what the behaviour of a transition has answered, and then enters the
target. -/
structure Follower where
  task : Nat
  target : Value
  answer : Option Nat

def Follower.frames (f : Follower) : List Frame :=
  [Session.afterTransition f.answer, .enterState f.target]

namespace Session

/-- The session whose machine has carried out an operation, before any behaviour is asked for. -/
def opened (s : Session) (o : Operation) : Session :=
  match s.machine with
  | none => s
  | some m => { s with machine := some (m.operate s.store o).1 }.logAll (m.operate s.store o).2.1

def entrance? (s : Session) (o : Operation) : Option Entrance :=
  s.machine.bind fun m => m.entrance? s.store o

def operate (s : Session) (o : Operation) : Session :=
  ((s.opened o).performAny (s.entrance? o)).1

theorem fst_load (s : Session) (model : Value) : (s.load model).1 = s.operate (.load model) := by
  unfold load operate opened entrance?
  cases s.machine with
  | none => rfl
  | some m =>
    simp only [Option.bind_some, Machine.entrance?, Machine.operate]
    cases (m.load s.store model).2.2 <;> rfl

theorem fst_setRunning (s : Session) (on : Bool) : (s.setRunning on).1 = s.operate (.setRunning on) := by
  unfold setRunning operate opened entrance?
  cases s.machine <;> rfl

theorem reset_eq (s : Session) : s.reset = s.operate .reset := by
  unfold reset operate opened entrance?
  cases s.machine <;> rfl

theorem fst_fire (s : Session) (name : Value) : (s.fire name).1 = s.operate (.fire name) := by
  unfold fire operate opened entrance?
  cases s.machine with
  | none => rfl
  | some m =>
    simp only [Option.bind_some, Machine.entrance?, Machine.operate]
    cases (m.fire s.store name).2.2 <;> rfl

def consult (s : Session) : Entry → Value → Session × Except Fault (Option Nat)
  | .transition => s.executeTransition
  | .state => s.executeState

def shows (s : Session) (entry : Entry) (config : Value) : List Occurrence :=
  match s.behavior, entry with
  | .canned _ _, .state => [.stateExecuted (s.datum config)]
  | .canned _ _, .transition => [.transitionExecuted (s.datum config)]
  | _, _ => []

/-- The parameters of a situation as they are when it is handed over. -/
def handed (s : Session) (whole : Bool) (values : List Value) : Datum :=
  if whole then s.datum (values.head?.getD .null) else .list (values.map s.datum)

/-- What a recording factory takes down when a situation is handed over to it. -/
def recorded (s : Session) (config : Value) (whole : Bool) (values : List Value) : List Occurrence :=
  let situation := s.datum (s.store.field config "situation")
  match s.coordinator.factory with
  | .recording _ _ =>
    [if s.isCurrent config then .refreshed situation (s.handed whole values)
      else .created situation (s.handed whole values)]
  | _ => []

def refusal? (s : Session) (config : Value) (whole : Bool) (values : List Value) : Option Fault :=
  match (s.place config whole values).2 with
  | .fail fault => some fault
  | _ => none

/-- The task that is to enter the target of a transition once the behaviour of that has ended. -/
def follower? (s : Session) (e : Entrance) : Option Follower :=
  if s.behavior = .absent ∨ s.store.truthy e.config = false then none
  else
    match s.executeTransition e.config with
    | (_, .error _) => none
    | (t, .ok answer) => some { task := t.schedule.promises.size, target := e.target, answer }

/-- The first thing that a transition asks the behaviour for. -/
def behaviorOf (s : Session) (e : Entrance) : Entry × Value :=
  if s.store.truthy e.config then (.transition, e.config) else (.state, s.store.field e.target "do")

end Session

/-- Something that the behaviour is asked to execute, and the session in which it is. -/
structure Consultation where
  session : Session
  entry : Entry
  config : Value

def Consultation.shown (q : Consultation) : List Occurrence :=
  q.session.shows q.entry q.config

/-- Whether the coordinator accepts the configuration of a state, and starts a task for its situation. -/
structure Consultation.Accepts (q : Consultation) (id : Nat) : Prop where
  entry : q.entry = .state
  coordinated : q.session.behavior = .coordinated
  accepted : (q.session.coordinateState q.config).2 = .ok id

inductive Milestone where
  /-- An operation of the machine, with the behaviour that it asks for. -/
  | operate (session : Session) (o : Operation)
  | enter (session : Session) (task : Nat) (target : Value)
  | place (session : Session) (task : Nat) (config : Value) (whole : Bool) (values : List Value)

namespace Milestone

/-- The session before a milestone is passed. -/
def session : Milestone → Session
  | .operate s _ | .enter s _ _ | .place s _ _ _ _ => s

def done : Milestone → Session
  | .operate s o => s.operate o
  | .enter s _ target => (s.executeState (s.store.field target "do")).1
  | .place s _ config whole values => (s.place config whole values).1

def follower? : Milestone → Option Follower
  | .operate s o => (s.entrance? o).bind (s.opened o).follower?
  | _ => none

/-- What a transition asks its behaviour for at once. -/
def opening? : Milestone → Option Consultation
  | .operate s o => (s.entrance? o).map fun e =>
      { session := s.opened o, entry := ((s.opened o).behaviorOf e).1, config := ((s.opened o).behaviorOf e).2 }
  | _ => none

/-- What a task that enters a state asks the behaviour for. -/
def closing? : Milestone → Option Consultation
  | .enter s _ target => some { session := s, entry := .state, config := s.store.field target "do" }
  | _ => none

def consultation? (k : Milestone) : Option Consultation :=
  k.opening?.or k.closing?

/-- What a task that comes about at a milestone may start with. -/
inductive Bears (k : Milestone) (id : Nat) (frames : List Frame) : Prop where
  | plain (plain : Plain frames)
  | follower {f : Follower} (left : k.follower? = some f) (own : f.task = id) (same : f.frames = frames)
  | situation {q : Consultation} {place : Nat} (asked : k.consultation? = some q) (accepts : q.Accepts id)
      (config : q.config = .ref place) (same : frames = [.materialize (.ref place)])

end Milestone

namespace Session

def acted? (s : Session) (action : Action) (request : Request) : Option Milestone :=
  match action with
  | .fire event => some (.operate s (.fire (event.getD request.first)))
  | _ => none

/-- What a method passes while it is being called, before it waits. -/
def called? (s : Session) (script : Script) (request : Request) : Option Milestone :=
  match script.turns with
  | none => s.acted? script.action request
  | some _ => none

def executed? (s : Session) (place : Nat) (name : Value) (params : List Value) : Option Milestone :=
  let service := s.coordinator.service place
  match service.isExecutable, s.checkName name, service.method? name with
  | true, .ok (), some m => (s.beginCall place m params).1.called? m.script (s.beginCall place m params).2
  | _, _, _ => none

def lineOperation? (text : String) : Option Operation :=
  let text := Text.trim text
  if text.isEmpty then none
  else
    match Command.parse text with
    | some .quit | some .exit | some .state => none
    | some .run => some (.setRunning true)
    | some .pause => some (.setRunning false)
    | some .reset => some .reset
    | none => some (.fire (.text text))

def passed? (s : Session) (task : Nat) (frame : Frame) (values : List Value) : Option Milestone :=
  match frame with
  | .act action request => s.acted? action request
  | .call target => (s.announceCall target values).executed? target.service (.text target.method) values
  | .enterState target => some (.enter s task target)
  | .place config whole => some (.place s task config whole values)
  | .line text => (lineOperation? text).map (.operate s)
  | .stop => some (.operate s (.setRunning false))
  | _ => none

theorem passed?_inward {s : Session} (task : Nat) {frame : Frame} (inward : frame.isInward = true) (values : List Value) :
    s.passed? task frame values = none := by
  cases frame with
  | call | place | enterState | act | line | stop => cases inward
  | _ => rfl

/-- What a line of input does to the session, by the operation that it asks for. -/
inductive Obeys (s : Session) : Option Operation → Session → Prop where
  | idle : Obeys s none s
  | quit : Obeys s none (s.log (.runner Level.info "Exit command received"))
  | operates (o : Operation) : Obeys s (some o) (s.operate o)
  | fails (o : Operation) {r : Record} (other : r.isFailure = false) : Obeys s (some o) ((s.operate o).log r)

theorem obeys_afterLine {s : Session} {text : String} {o : Operation} {result : Session × Except Fault Unit}
    (operated : result.1 = s.operate o) : s.Obeys (some o) (afterLine text result).1 := by
  obtain ⟨t, answer⟩ := result
  obtain rfl : t = s.operate o := operated
  cases answer with
  | ok done => exact .operates o
  | error fault =>
    rw [afterLine]
    split
    · exact .fails o rfl
    · exact .operates o

theorem obeys_line (s : Session) (text : String) : s.Obeys (lineOperation? text) (s.handleLine text).1 := by
  unfold handleLine lineOperation?
  dsimp only
  cases (Text.trim text).isEmpty with
  | true => exact .idle
  | false =>
    cases Command.parse (Text.trim text) with
    | none => exact obeys_afterLine (s.fst_fire _)
    | some command =>
      cases command with
      | quit => exact .quit
      | exit => exact .quit
      | run => exact obeys_afterLine (s.fst_setRunning true)
      | pause => exact obeys_afterLine (s.fst_setRunning false)
      | reset => exact s.reset_eq ▸ .operates .reset
      | state => exact .idle

def milestone? (s : Session) : Event → Option Milestone
  | .step =>
    match s.turn with
    | some { task, frames := frame :: _, values } => s.passed? task frame values
    | _ => none
  | .execute place name params => s.executed? place name params
  | .load model => some (.operate s (.load model))
  | .setRunning on => some (.operate s (.setRunning on))
  | .reset => some (.operate s .reset)
  | .fire name => some (.operate s (.fire name))
  | _ => none

/-- Whether a session comes to a milestone without anything being scheduled or written. -/
structure Meets (s : Session) (m : Milestone) : Prop where
  calm : s.Calm m.session
  schedule : m.session.schedule = s.schedule
  store : m.session.store = s.store

/-- Whether one session leads to another by way of what is passed, if anything is. -/
def Passes (s t : Session) : Option Milestone → Prop
  | none => s.Calm t
  | some m => s.Meets m ∧ m.done.Calm t

variable {s t u : Session}

theorem Meets.self (m : Milestone) : m.session.Meets m :=
  ⟨.refl _, rfl, rfl⟩

namespace Passes

theorem self (m : Milestone) : m.session.Passes m.done (some m) :=
  ⟨.self m, .refl _⟩

theorem after {passed : Option Milestone} (calm : s.Calm u) (schedule : u.schedule = s.schedule) (store : u.store = s.store)
    (passes : u.Passes t passed) : s.Passes t passed := by
  cases passed with
  | none => exact calm.trans passes
  | some m =>
    obtain ⟨meets, last⟩ := passes
    exact ⟨⟨calm.trans meets.calm, meets.schedule.trans schedule, meets.store.trans store⟩, last⟩

theorem before {passed : Option Milestone} (passes : s.Passes u passed) (calm : u.Calm t) : s.Passes t passed := by
  cases passed with
  | none => exact Calm.trans passes calm
  | some m => exact ⟨passes.1, passes.2.trans calm⟩

theorem operate (s : Session) (o : Operation) : s.Passes (s.operate o) (some (.operate s o)) :=
  .self (.operate s o)

theorem act (s : Session) (action : Action) (request : Request) :
    s.Passes (s.act action request).1 (s.acted? action request) := by
  cases action with
  | compute run => exact Calm.store s _
  | fire event =>
    rw [fst_act, fst_fire]
    exact .operate s _
  | defer => exact Calm.refl s

theorem calls {script : Script} {request : Request} {direct : Bool} {result : Session × Reply}
    (calls : s.Calls script request direct result) : s.Passes result.1 (s.called? script request) := by
  have acted := Passes.act s script.action request
  cases calls with
  | defer defers =>
    have silent : s.called? script request = none := by
      rw [called?, defers]
      split <;> rfl
    rw [silent]
    exact Calm.defer s
  | late later =>
    rw [called?, later]
    exact Calm.late s _ _ request
  | steps later =>
    rw [called?, later]
    exact Calm.refl s
  | settled alone outcome =>
    rw [called?, alone]
    exact acted.before (.settled _ outcome)
  | stopped alone | plain alone | raised alone =>
    rw [called?, alone]
    exact acted

theorem beginCall (s : Session) (place : Nat) (m : Method) (params : List Value) :
    s.Calm (s.beginCall place m params).1 := by
  have counted : s.Calm { s with coordinator := s.coordinator.count m.counter } :=
    .coordinator s rfl rfl ⟨id, id, fun _ => ⟨rfl, rfl⟩, rfl⟩
  exact counted.trans (.note _ rfl rfl)

theorem execute (s : Session) (place : Nat) (name : Value) (params : List Value) :
    s.Passes (s.execute place name params).1 (s.executed? place name params) := by
  have responds := s.responds_execute place name params
  generalize s.execute place name params = result at responds ⊢
  cases responds with
  | refused fault unable =>
    have silent : s.executed? place name params = none := by
      unfold executed?
      dsimp only
      split
      next able named found => cases (unable able named).symm.trans found
      · rfl
    rw [silent]
    exact Calm.refl s
  | @called m _ _ able named found calls =>
    have passes := Passes.calls calls
    rw [executed?, able, named, found]
    exact .after (Passes.beginCall s place m params) rfl rfl passes

theorem callTarget (s : Session) (target : Target) (values : List Value) :
    s.Passes (s.callTarget target values).1
      ((s.announceCall target values).executed? target.service (.text target.method) values) := by
  have executed := Passes.execute (s.announceCall target values) target.service (.text target.method) values
  have called : s.Passes _ _ := .after (Calm.log s rfl) rfl rfl executed
  unfold Session.callTarget
  dsimp only
  generalize (s.announceCall target values).execute target.service (.text target.method) values = result at *
  obtain ⟨t, reply⟩ := result
  cases reply <;> exact called

theorem obeys {o : Option Operation} (obeys : s.Obeys o t) : s.Passes t (o.map (.operate s)) := by
  cases obeys with
  | idle => exact Calm.refl s
  | quit => exact Calm.log s rfl
  | operates o => exact .operate s o
  | fails o other => exact (Passes.operate s o).before (.log _ other)

theorem acting {frame : Frame} {values : List Value} (acting : s.Acting values frame t) (task : Nat)
    (tracked : ∀ id ∈ s.tracked, id < s.schedule.promises.size) : s.Passes t (s.passed? task frame values) := by
  cases acting with
  | idle inward => exact (passed?_inward task inward values).symm ▸ Calm.refl s
  | map inward mapping items next => exact (passed?_inward task inward values).symm ▸ Calm.mapEach s mapping items next
  | call target => exact .callTarget s target values
  | place config whole => exact .self (.place s task config whole values)
  | enter target => exact .self (.enter s task target)
  | act action request => exact .act s action request
  | drain among => exact Calm.join s (fun member isMember => tracked member (among member isMember)) true
  | ask => exact Calm.ask s
  | line text =>
    rw [passed?]
    exact .obeys (s.obeys_line text)
  | announce => exact Calm.log s rfl
  | stop =>
    rw [fst_setRunning]
    exact .operate s (.setRunning false)
  | stopped => exact Calm.log s rfl

theorem takeStep (s : Session) (task : Nat) (frame : Frame) (values : List Value)
    (tracked : ∀ id ∈ s.tracked, id < s.schedule.promises.size) :
    s.Passes (s.takeStep frame values).1 (s.passed? task frame values) :=
  .acting (s.acting_step frame values) task tracked

end Passes

theorem schedule_opened (s : Session) (o : Operation) : (s.opened o).schedule = s.schedule := by
  unfold opened
  split
  · rfl
  · rw [logAll_eq]

theorem outline_opened (s : Session) (o : Operation) :
    (s.opened o).outline = { s.outline with machine := s.machine.map fun m => (m.operate s.store o).1 } := by
  unfold opened
  split
  next none => simp only [Session.outline, none, Option.map_none]
  next m some =>
    rw [(Calm.logAll _ (m.records_operate s.store o)).outline]
    simp only [Session.outline, some, Option.map_some]

theorem grows_opened (s : Session) (o : Operation) : s.Grows (s.opened o) := by
  unfold opened
  split
  · exact .refl s
  · exact .machine s _ _

theorem grows_operate (s : Session) (o : Operation) : s.Grows (s.operate o) :=
  (s.grows_opened o).trans (.performAny _ _)

/-- What asking the behaviour for something does to the session. A stand-in takes it down, and gives the answer
that it has ready. -/
inductive Consults (s : Session) (entry : Entry) (config : Value) : Session → Prop where
  | absent (none : s.behavior = .absent) : Consults s entry config s
  | canned {o : Occurrence} (shown : s.shows entry config = [o]) (appeal : o.isAppeal = true) (answer : Canned) :
      Consults s entry config ((s.note o).answerCanned answer).1
  | coordinated (coordinated : s.behavior = .coordinated) : Consults s entry config (s.coordinate entry config).1

theorem consults (s : Session) (entry : Entry) (config : Value) : s.Consults entry config (s.consult entry config).1 := by
  cases entry with
  | transition =>
    rw [consult, executeTransition]
    cases behavior : s.behavior with
    | absent => exact .absent behavior
    | canned state transition => exact .canned (by simp only [shows, behavior]) rfl transition
    | coordinated => exact .coordinated behavior
  | state =>
    rw [consult, executeState]
    cases behavior : s.behavior with
    | absent => exact .absent behavior
    | canned state transition => exact .canned (by simp only [shows, behavior]) rfl state
    | coordinated => exact .coordinated behavior

theorem shows_absent (s : Session) (absent : s.behavior = .absent) (entry : Entry) (config : Value) :
    s.shows entry config = [] := by
  simp only [shows, absent]

theorem shows_coordinated (s : Session) (coordinated : s.behavior = .coordinated) (entry : Entry) (config : Value) :
    s.shows entry config = [] := by
  simp only [shows, coordinated]

/-- Asking the behaviour for something is taken down, if it is a stand-in. The work that it starts is
plain, but for that of a state whose configuration the coordinator accepts. -/
theorem consult_cases (s : Session) (entry : Entry) (config : Value) :
    (s.consult entry config).1.outline = { s.outline with appeals := s.shows entry config ++ s.outline.appeals } ∧
      ∀ id frames, s.schedule.promises.size ≤ id → (s.consult entry config).1.schedule.origin? id = some (.task frames) →
        Plain frames ∨ Consultation.Accepts ⟨s, entry, config⟩ id ∧ ∃ place, config = .ref place ∧
          frames = [.materialize config] := by
  have consults := s.consults entry config
  generalize (s.consult entry config).1 = t at consults
  have plain (calm : s.Calm t) (silent : s.shows entry config = []) :
      t.outline = { s.outline with appeals := s.shows entry config ++ s.outline.appeals } ∧
        ∀ id frames, s.schedule.promises.size ≤ id → t.schedule.origin? id = some (.task frames) →
          Plain frames ∨ Consultation.Accepts ⟨s, entry, config⟩ id ∧ ∃ place, config = .ref place ∧
            frames = [.materialize config] := by
    rw [silent]
    exact ⟨calm.outline, fun id frames new held => Or.inl (calm.sprouts id frames new held)⟩
  cases consults with
  | absent none => exact plain (.refl s) (s.shows_absent none entry config)
  | @canned o shown appeal answer =>
    have answered := Calm.answerCanned (s.note o) answer
    rw [shown]
    refine ⟨answered.outline.trans ?_, fun id frames new held => Or.inl (answered.sprouts id frames new held)⟩
    simp only [Session.outline, Session.note, List.filter_cons, appeal, if_true, List.singleton_append]
  | coordinated coordinated =>
    have silent := s.shows_coordinated coordinated entry config
    cases entry with
    | transition => exact plain (.coordinateTransition s config) silent
    | state =>
      rcases Calm.coordinateState_cases s config with still | ⟨place, mapping, spawned⟩
      · exact plain still silent
      · rw [silent, coordinate, spawned]
        refine ⟨rfl, fun id frames new held => ?_⟩
        obtain ⟨own, same⟩ := s.held_spawn new held
        exact Or.inr ⟨⟨rfl, coordinated, by rw [spawned, own]⟩, place, mapping, same⟩

def firstShown (s : Session) : Option Entrance → List Occurrence
  | none => []
  | some e => s.shows (s.behaviorOf e).1 (s.behaviorOf e).2

/-- What a transition does to the session, what it answers, and the task that it leaves. The behaviour is asked
for what comes first, and what it answers with is kept track of. -/
inductive Enacts (s : Session) (e : Entrance) : Option Follower → Session × Except Fault Unit → Prop where
  | absent (none : s.behavior = .absent) : Enacts s e .none (s, .ok ())
  | raised {t : Session} {fault : Fault} (attached : s.behavior ≠ .absent)
      (asked : s.consult (s.behaviorOf e).1 (s.behaviorOf e).2 = (t, .error fault)) : Enacts s e none (t, .error fault)
  | nothing {t : Session} (attached : s.behavior ≠ .absent) (silent : s.store.truthy e.config = false)
      (asked : s.consult (s.behaviorOf e).1 (s.behaviorOf e).2 = (t, .ok .none)) : Enacts s e none (t, .ok ())
  | state {t : Session} {id : Nat} (attached : s.behavior ≠ .absent) (silent : s.store.truthy e.config = false)
      (asked : s.consult (s.behaviorOf e).1 (s.behaviorOf e).2 = (t, .ok (some id))) :
      Enacts s e none (t.track id (s.store.field e.target "name"), .ok ())
  | transition {t : Session} {answer : Option Nat} (attached : s.behavior ≠ .absent)
      (given : s.store.truthy e.config = true)
      (asked : s.consult (s.behaviorOf e).1 (s.behaviorOf e).2 = (t, .ok answer)) :
      Enacts s e (some { task := t.schedule.promises.size, target := e.target, answer })
        ((t.spawn [afterTransition answer, .enterState e.target]).1.track t.schedule.promises.size
          (s.store.field e.target "name"), .ok ())

theorem enacts_perform (s : Session) (e : Entrance) : s.Enacts e (s.follower? e) (s.perform e) := by
  by_cases attached : s.behavior = .absent
  · simp only [perform, follower?, attached, true_or, if_true]
    exact .absent attached
  cases truthy : s.store.truthy e.config with
  | true =>
    have own : s.consult (s.behaviorOf e).1 (s.behaviorOf e).2 = s.executeTransition e.config := by
      rw [behaviorOf, truthy]
      rfl
    simp only [perform, follower?, attached, truthy, Bool.true_eq_false, or_self, if_true, if_false]
    cases answered : s.executeTransition e.config with
    | mk t answer =>
      cases answer with
      | error fault => exact .raised attached (own.trans answered)
      | ok id => exact .transition attached truthy (own.trans answered)
  | false =>
    have own : s.consult (s.behaviorOf e).1 (s.behaviorOf e).2 = s.executeState (s.store.field e.target "do") := by
      rw [behaviorOf, truthy]
      rfl
    simp only [perform, follower?, attached, truthy, or_true, Bool.false_eq_true, if_true, if_false]
    cases answered : s.executeState (s.store.field e.target "do") with
    | mk t answer =>
      obtain fault | (_ | id) := answer
      · exact .raised attached (own.trans answered)
      · exact .nothing attached truthy (own.trans answered)
      · exact .state attached truthy (own.trans answered)

theorem outline_performAny (s : Session) (entrance : Option Entrance) :
    (s.performAny entrance).1.outline = { s.outline with appeals := s.firstShown entrance ++ s.outline.appeals } := by
  cases entrance with
  | none => rfl
  | some e =>
    have shown := (s.consult_cases (s.behaviorOf e).1 (s.behaviorOf e).2).1
    have enacts := s.enacts_perform e
    rw [performAny, firstShown]
    generalize s.perform e = result, s.follower? e = f at enacts
    cases enacts with
    | absent none => rw [s.shows_absent none, List.nil_append]
    | raised _ asked | nothing _ _ asked | state _ _ asked | transition _ _ asked =>
      rw [asked] at shown
      exact shown

theorem outline_operate (s : Session) (o : Operation) :
    (s.operate o).outline = { s.outline with
      machine := s.machine.map fun m => (m.operate s.store o).1
      appeals := (s.opened o).firstShown (s.entrance? o) ++ s.outline.appeals } := by
  rw [operate, outline_performAny, outline_opened]

/-- A transition starts plain work only, but for the task that is to enter the target, or that of the
situation if the coordinator accepts the configuration of the target at once. -/
theorem performAny_sprouts (s : Session) (entrance : Option Entrance) {id : Nat} {frames : List Frame}
    (new : s.schedule.promises.size ≤ id)
    (held : (s.performAny entrance).1.schedule.origin? id = some (.task frames)) :
    Plain frames ∨ (∃ f, entrance.bind s.follower? = some f ∧ f.task = id ∧ f.frames = frames) ∨
      ∃ e place, entrance = some e ∧ Consultation.Accepts ⟨s, (s.behaviorOf e).1, (s.behaviorOf e).2⟩ id ∧
        (s.behaviorOf e).2 = .ref place ∧ frames = [.materialize (.ref place)] := by
  cases entrance with
  | none => exact Or.inl ((Calm.refl s).sprouts id frames new held)
  | some e =>
    have begun (held : (s.consult (s.behaviorOf e).1 (s.behaviorOf e).2).1.schedule.origin? id = some (.task frames)) :
        Plain frames ∨ (∃ f, (some e).bind s.follower? = some f ∧ f.task = id ∧ f.frames = frames) ∨
          ∃ e' place, some e = some e' ∧ Consultation.Accepts ⟨s, (s.behaviorOf e').1, (s.behaviorOf e').2⟩ id ∧
            (s.behaviorOf e').2 = .ref place ∧ frames = [.materialize (.ref place)] := by
      refine ((s.consult_cases _ _).2 id frames new held).imp_right fun made => Or.inr ?_
      obtain ⟨accepts, place, mapping, same⟩ := made
      exact ⟨e, place, rfl, accepts, mapping, mapping ▸ same⟩
    have enacts := s.enacts_perform e
    rw [performAny] at held
    rw [Option.bind_some] at begun ⊢
    generalize s.perform e = result, s.follower? e = f at enacts held begun ⊢
    cases enacts with
    | absent => exact Or.inl ((Calm.refl s).sprouts id frames new held)
    | raised _ asked | nothing _ _ asked => exact begun (asked ▸ held)
    | state _ _ asked => exact begun (asked ▸ (Schedule.origin?_watch ..).symm.trans held)
    | @transition t answer _ _ asked =>
      have origin : (t.spawn [afterTransition answer, .enterState e.target]).1.schedule.origin? id = some (.task frames) :=
        (Schedule.origin?_watch ..).symm.trans held
      -- Only the task that is left is spawned here. The others are those of the behaviour.
      by_cases own : id = t.schedule.promises.size
      · subst own
        cases (Schedule.origin?_spawn t.schedule _).symm.trans origin
        exact Or.inr (Or.inl ⟨_, rfl, rfl, rfl⟩)
      · have inside := Schedule.origin?_inside origin
        have size := Schedule.size_spawn t.schedule [afterTransition answer, .enterState e.target]
        simp only [spawn, scheduled] at inside
        have old : id < t.schedule.promises.size := by omega
        exact begun (asked ▸ ((Schedule.Extends.spawn t.schedule _).origin old).symm.trans origin)

theorem mem_tracked (s : Session) (id : Nat) (name : Value) : id ∈ (s.track id name).tracked := by
  simp only [track]
  split
  next known => exact List.contains_iff_mem.mp known
  next => exact List.mem_append_right _ (List.mem_singleton_self _)

/-- Where the coordinator accepts the configuration of the target at once, the promise of its situation is kept track of. -/
theorem perform_accepted {s : Session} {e : Entrance} {id : Nat}
    (accepts : Consultation.Accepts ⟨s, (s.behaviorOf e).1, (s.behaviorOf e).2⟩ id) :
    s.perform e = ((s.coordinateState (s.behaviorOf e).2).1.track id (s.store.field e.target "name"), .ok ()) := by
  obtain ⟨entry, coordinated, accepted⟩ := accepts
  dsimp only at entry coordinated accepted
  have answered : s.consult (s.behaviorOf e).1 (s.behaviorOf e).2 =
      ((s.coordinateState (s.behaviorOf e).2).1, .ok (some id)) := by
    rw [entry, consult, executeState, coordinated]
    dsimp only
    rw [accepted]
    rfl
  have enacts := s.enacts_perform e
  generalize s.perform e = result, s.follower? e = f at enacts
  cases enacts with
  | absent none => cases none.symm.trans coordinated
  | raised _ asked | nothing _ _ asked => cases answered.symm.trans asked
  | state _ _ asked =>
    cases answered.symm.trans asked
    rfl
  | transition _ given => simp [behaviorOf, given] at entry

theorem starts_consult (s : Session) (entry : Entry) (config : Value) : s.Starts (s.consult entry config) := by
  cases entry with
  | transition => exact .executeTransition s config
  | state => exact .executeState s config

/-- The task that is to enter the target later is new, and is kept track of. -/
theorem follower_tracked {s : Session} {entrance : Option Entrance} {f : Follower}
    (left : entrance.bind s.follower? = some f) :
    s.schedule.promises.size ≤ f.task ∧ f.task ∈ (s.performAny entrance).1.tracked ∧
      (s.performAny entrance).1.schedule.origin? f.task = some (.task f.frames) := by
  obtain ⟨e, rfl, follower⟩ := Option.bind_eq_some_iff.mp left
  have enacts := s.enacts_perform e
  rw [follower] at enacts
  rw [performAny]
  generalize s.perform e = result at enacts
  cases enacts with
  | transition _ _ asked =>
    have grows := (s.starts_consult (s.behaviorOf e).1 (s.behaviorOf e).2).grows
    rw [asked] at grows
    exact ⟨grows.extends.schedule.size, mem_tracked .., (Schedule.origin?_watch ..).trans (Schedule.origin?_spawn ..)⟩

theorem outline_callFactory (s : Session) (again : Bool) (situation : Value) (params : Datum) :
    (s.callFactory again situation params).1.outline = { s.outline with
      appeals := (match s.coordinator.factory with
        | .recording _ _ => [if again then Occurrence.refreshed (s.datum situation) params
            else .created (s.datum situation) params]
        | _ => []) ++ s.outline.appeals } := by
  unfold callFactory
  split
  next absent => simp only [absent, List.nil_append]
  next silent => simp only [silent, List.nil_append]
  next foreign => simp only [foreign, List.nil_append]
  next logging => simp only [logging, List.nil_append]; exact s.outline_log _
  next recording =>
    simp only [recording]
    split
    · cases again <;> rfl
    · cases again <;> rfl
    · cases again <;> rfl
    · split <;> cases again <;> rfl

theorem place_eq (s : Session) (config : Value) (whole : Bool) (values : List Value) :
    ∃ record, s.place config whole values =
      match (s.log record).callFactory (s.isCurrent config) (s.store.field config "situation")
        (s.handed whole values) with
      | (t, .error fault) => (t, .fail fault)
      | (t, .ok ()) =>
        (if s.isCurrent config then t else { t with coordinator := { t.coordinator with created := some config } },
          .go [] []) :=
  ⟨_, rfl⟩

/-- What is created last changes when a situation that is not the current one is accepted. -/
theorem outline_place (s : Session) (config : Value) (whole : Bool) (values : List Value) :
    (s.place config whole values).1.outline = { s.outline with
      created := if (s.refusal? config whole values).isNone && !s.isCurrent config then some config
        else s.coordinator.created
      appeals := s.recorded config whole values ++ s.outline.appeals } := by
  obtain ⟨record, placed⟩ := s.place_eq config whole values
  have called := outline_callFactory (s.log record) (s.isCurrent config) (s.store.field config "situation")
    (s.handed whole values)
  rw [s.outline_log record] at called
  unfold refusal? recorded
  rw [placed]
  split
  next t fault failed =>
    rw [failed] at called
    exact called
  next t made =>
    rw [made] at called
    cases current : s.isCurrent config <;> rw [current] at called
    case true => exact called
    case false =>
      simp only [Bool.false_eq_true, if_false, Session.outline, Outline.mk.injEq] at called ⊢
      exact ⟨called.1, called.2.1, called.2.2.1, rfl, called.2.2.2.2⟩

end Session

namespace Milestone

theorem grows_done (m : Milestone) : m.session.Grows m.done := by
  cases m with
  | operate s o => exact s.grows_operate o
  | enter s task target => exact (Session.Starts.executeState s _).grows
  | place s task config whole values => exact .place s config whole values

theorem bears_done (m : Milestone) {id : Nat} {frames : List Frame} (new : m.session.schedule.promises.size ≤ id)
    (held : m.done.schedule.origin? id = some (.task frames)) : m.Bears id frames := by
  cases m with
  | operate s o =>
    have opened : (s.opened o).schedule.promises.size ≤ id := by rwa [s.schedule_opened o]
    rcases Session.performAny_sprouts _ _ opened held with plain | ⟨f, left, own, same⟩ | ⟨e, place, entered, accepts, mapping, same⟩
    · exact .plain plain
    · exact .follower left own same
    · refine .situation ?_ accepts mapping same
      simp only [consultation?, opening?, closing?, entered, Option.map_some, Option.or_none]
  | enter s task target =>
    rcases (s.consult_cases .state (s.store.field target "do")).2 id frames new held with plain | ⟨accepts, place, mapping, same⟩
    · exact .plain plain
    · exact .situation rfl accepts mapping (by rw [same, mapping])
  | place s task config whole values =>
    exact .plain (Session.Sprouts.same (s.schedule_place config whole values) id frames new held)

theorem follower_done {m : Milestone} {f : Follower} (left : m.follower? = some f) :
    m.session.schedule.promises.size ≤ f.task ∧ f.task ∈ m.done.tracked ∧
      m.done.schedule.origin? f.task = some (.task f.frames) := by
  cases m with
  | operate s o =>
    have opened := s.schedule_opened o
    have tracked := Session.follower_tracked left
    rw [opened] at tracked
    exact tracked
  | enter s task target => cases left
  | place s task config whole values => cases left

end Milestone

end Interaction
