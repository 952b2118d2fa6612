import Interaction.Proofs.Watches

/-! What a session shows apart from its schedule: its machine, the configuration created last,
and what the behaviour and the factory were asked for. Most operations leave all of it alone,
and start no task that enters a state or hands over a situation of its own. -/

namespace Interaction

/-- Whether the behaviour or the factory is asked for something. -/
def Occurrence.isAppeal : Occurrence → Bool
  | .created _ _ | .refreshed _ _ | .stateExecuted _ | .transitionExecuted _ => true
  | _ => false

/-- What a task is there for, if not only for parameters. -/
inductive Purpose where
  | enter (target : Value)
  | situation (config : Value)
  deriving Inhabited

def Frame.purpose? : Frame → Option Purpose
  | .enterState target => some (.enter target)
  | .materialize config | .arrange config | .place config _ => some (.situation config)
  | _ => none

def Plain (frames : List Frame) : Prop :=
  ∀ frame ∈ frames, frame.purpose? = none

structure Outline where
  machine : Option Machine
  behavior : Behavior
  factory : Factory
  created : Option Value
  appeals : List Occurrence

namespace Session

def outline (s : Session) : Outline where
  machine := s.machine
  behavior := s.behavior
  factory := s.coordinator.factory
  created := s.coordinator.created
  appeals := s.trace.filter Occurrence.isAppeal

/-- Whether all tasks that come about begin with plain steps. -/
def Sprouts (s t : Session) : Prop :=
  ∀ id frames, s.schedule.promises.size ≤ id → t.schedule.origin? id = some (.task frames) → Plain frames

variable {s t u : Session}

theorem Sprouts.same (schedule : t.schedule = s.schedule) : s.Sprouts t := by
  intro id frames new held
  rw [schedule] at held
  exact absurd (Schedule.origin?_inside held) (Nat.not_lt_of_le new)

theorem Sprouts.trans (first : s.Sprouts t) (last : t.Sprouts u) (grows : t.Grows u) : s.Sprouts u := by
  intro id frames new held
  by_cases inside : id < t.schedule.promises.size
  · rw [grows.extends.schedule.origin inside] at held
    exact first id frames new held
  · exact last id frames (Nat.le_of_not_lt inside) held

/-- The only task that comes about is the one that is started. -/
theorem held_spawn (s : Session) {steps frames : List Frame} {id : Nat} (new : s.schedule.promises.size ≤ id)
    (held : (s.spawn steps).1.schedule.origin? id = some (.task frames)) : id = s.schedule.promises.size ∧ frames = steps := by
  have added : (s.schedule.add { origin := .task steps }).1.origin? id = some (.task frames) := held
  rw [Schedule.origin?_add] at added
  split at added
  next own =>
    cases added
    exact ⟨own, rfl⟩
  · exact absurd (Schedule.origin?_inside added) (Nat.not_lt_of_le new)

theorem outline_log (s : Session) (r : Record) : (s.log r).outline = s.outline := rfl

/-- Whether an operation leaves the outline and what is watched alone, and all tasks that it starts
are plain. -/
structure Calm (s t : Session) : Prop where
  outline : t.outline = s.outline
  grows : s.Grows t
  sprouts : s.Sprouts t
  watch : s.SameWatch t

namespace Calm

theorem aside (outline : t.outline = s.outline) (grows : s.Grows t) (schedule : t.schedule = s.schedule)
    (watch : s.SameWatch t) : s.Calm t :=
  ⟨outline, grows, .same schedule, watch⟩

theorem refl (s : Session) : s.Calm s :=
  .aside rfl (.refl s) rfl (.refl s)

theorem trans (first : s.Calm t) (last : t.Calm u) : s.Calm u :=
  ⟨last.outline.trans first.outline, first.grows.trans last.grows, first.sprouts.trans last.sprouts last.grows,
    first.watch.trans last.watch⟩

theorem store (s : Session) (store : Store) : s.Calm { s with store } :=
  .aside rfl (.store s store) rfl (.same rfl rfl rfl)

theorem note (s : Session) {o : Occurrence} (other : o.isAppeal = false) (failure : o.failure? = none) :
    s.Calm (s.note o) := by
  refine .aside ?_ (.note s o) rfl (.note s failure)
  simp only [Session.outline, Session.note, List.filter_cons, other]
  rfl

theorem log (s : Session) {r : Record} (other : r.isFailure = false) : s.Calm (s.log r) :=
  .aside rfl (.log s r) rfl (.log s other)

theorem logAll (s : Session) {rs : List Record} (others : ∀ r ∈ rs, r.isFailure = false) : s.Calm (s.logAll rs) := by
  induction rs generalizing s with
  | nil => exact .refl s
  | cons r rs ih =>
    have first := Calm.log s (others r (List.mem_cons_self ..))
    exact first.trans (ih _ fun other member => others other (List.mem_cons_of_mem r member))

theorem spawn (s : Session) {frames : List Frame} (plain : Plain frames) : s.Calm (s.spawn frames).1 := by
  refine ⟨rfl, .spawn s frames, fun id steps new held => ?_, .spawn s frames⟩
  rw [(s.held_spawn new held).2]
  exact plain

theorem spawnAll (s : Session) {tasks : List (List Frame)} (plain : ∀ frames ∈ tasks, Plain frames) :
    s.Calm { s with schedule := s.schedule.spawnAll tasks } := by
  induction tasks generalizing s with
  | nil => exact .refl s
  | cons frames rest ih =>
    have first := Calm.spawn s (plain frames (List.mem_cons_self ..))
    exact first.trans (ih (s.spawn frames).1 fun frames member => plain frames (List.mem_cons_of_mem _ member))

theorem added (outline : t.outline = s.outline) (grows : s.Grows t) (p : Promise Frame)
    (simple : ∀ frames, p.origin ≠ .task frames)
    (origins : ∀ id, t.schedule.origin? id = (s.schedule.add p).1.origin? id) (watch : s.SameWatch t) : s.Calm t := by
  refine ⟨outline, grows, fun id frames new held => ?_, watch⟩
  rw [origins, Schedule.origin?_add] at held
  split at held
  · exact absurd (Option.some.inj held) (simple frames)
  · exact absurd (Schedule.origin?_inside held) (Nat.not_lt_of_le new)

theorem settled (s : Session) (outcome : Outcome) : s.Calm (s.settled outcome).1 :=
  .added rfl (.settled s outcome) { origin := .outside, outcome := some outcome } nofun (fun _ => rfl) (.settled s outcome)

theorem defer (s : Session) : s.Calm s.defer.1 :=
  .added rfl (.defer s) { origin := .outside } nofun (fun _ => rfl) (.defer s)

theorem ask (s : Session) : s.Calm s.ask.1 :=
  .added rfl (.ask s) { origin := .outside } nofun (fun _ => rfl) (.ask s)

theorem join (s : Session) {members : List Nat} (inside : ∀ member ∈ members, member < s.schedule.promises.size)
    (patient : Bool) : s.Calm (s.scheduled (·.join members patient)).1 := by
  by_cases empty : members = []
  · subst empty
    exact .settled s _
  · refine .added rfl (.join s inside patient) { origin := .join members members.length patient } nofun (fun id => ?_)
      (.join s inside patient)
    simp only [Session.scheduled, s.schedule.join_members empty patient]
    exact Schedule.origin?_watchAll ..

theorem callService (s : Session) (config given : Value) : s.Calm (s.callService config given).1 := by
  unfold Session.callService
  split
  · exact .refl s
  · exact .spawn s (by simp [Plain, Frame.purpose?])

theorem coordinateTransition (s : Session) (config : Value) : s.Calm (s.coordinateTransition config).1 := by
  unfold Session.coordinateTransition
  split
  · exact .callService s config .null
  · exact .settled s _

/-- Only a mapping is accepted as the configuration of a state. -/
theorem checkState_ref {c : Coordinator} {d : Store} {config : Value} (passed : c.checkState d config = .ok ()) :
    ∃ place, config = .ref place := by
  cases config with
  | ref place => exact ⟨place, rfl⟩
  | scalar x => cases passed
  | tuple items => cases passed

/-- The configuration of a state starts a task for its situation, if it is accepted and not empty. -/
theorem coordinateState_cases (s : Session) (config : Value) : s.Calm (s.coordinateState config).1 ∨
    ∃ place, config = .ref place ∧
      s.coordinateState config = ((s.spawn [.materialize config]).1, .ok s.schedule.promises.size) := by
  unfold Session.coordinateState
  split
  · exact Or.inl ((Calm.log s rfl).trans (.settled _ _))
  · split
    · exact Or.inl (.refl s)
    next passed =>
      obtain ⟨place, rfl⟩ := checkState_ref passed
      exact Or.inr ⟨place, rfl, rfl⟩

theorem answerCanned (s : Session) (answer : Canned) : s.Calm (s.answerCanned answer).1 := by
  cases answer with
  | nothing => exact .refl s
  | done => exact .settled s _
  | failed => exact .settled s _
  | defer => exact .defer s
  | refuse => exact .refl s

theorem coordinator (s : Session) {coordinator : Coordinator} (factory : coordinator.factory = s.coordinator.factory)
    (created : coordinator.created = s.coordinator.created) (grown : s.coordinator.Extends coordinator) :
    s.Calm { s with coordinator } := by
  refine .aside ?_ (.coordinator s grown) rfl (.same rfl rfl rfl)
  simp only [Session.outline, factory, created]

theorem late (s : Session) (turns : Nat) (action : Action) (request : Request) :
    s.Calm (s.spawn (lateSteps turns action request)).1 := by
  apply Calm.spawn
  intro frame member
  rcases List.mem_append.mp member with first | last
  · rw [List.eq_of_mem_replicate first]
    rfl
  · rw [List.mem_singleton.mp last]
    rfl

theorem expose (s : Session) (place : Nat) (name : Value) (label : String) (script : Script) :
    s.Calm (s.expose place name label script).1 := by
  unfold Session.expose
  split
  · exact .refl s
  · have exposed : s.Calm { s with coordinator := s.coordinator.expose place { name, label, script } } :=
      .coordinator s rfl rfl (.expose _ place _)
    exact exposed.trans (.log _ rfl)

theorem addService (s : Session) (service : Service) (methods : List (String × Script)) :
    s.Calm (s.addService service methods).1 := by
  have exposed (methods : List (String × Script)) (place : Nat) (t : Session) :
      t.Calm (methods.foldl (fun s m => (s.expose place (.text m.1) m.1 m.2).1) t) := by
    induction methods generalizing t with
    | nil => exact .refl t
    | cons method rest ih => exact (Calm.expose t place _ _ _).trans (ih _)
  have added : s.Calm { s with coordinator := (s.coordinator.addService service).1 } :=
    .coordinator s rfl rfl (.addService _ service)
  exact added.trans (exposed methods _ _)

theorem register (s : Session) (name : Value) (place : Option Nat) : s.Calm (s.register name place).1 := by
  unfold Session.register
  split
  · exact .refl s
  next coordinator record registered =>
    have grown := Coordinator.Extends.register registered
    have kept : coordinator.factory = s.coordinator.factory ∧ coordinator.created = s.coordinator.created ∧
        record.isFailure = false := by
      unfold Coordinator.register at registered
      repeat' split at registered
      all_goals cases registered
      exact ⟨rfl, rfl, rfl⟩
    have registered := Calm.coordinator s kept.1 kept.2.1 grown
    exact registered.trans (.log _ kept.2.2)

theorem mapEach (s : Session) (mapping : Value) (values : List Value) (frames : List Frame) :
    s.Calm (s.mapEach mapping values frames).1 := by
  rw [mapEach_eq]
  split
  · exact .refl s
  · exact .refl s
  · refine (Calm.spawnAll s ?_).trans (.join _ ?_ false)
    · intro frames member
      obtain ⟨item, _, rfl⟩ := List.mem_map.mp member
      simp [Plain, Frame.purpose?]
    · exact fun member isMember => s.member_spawned mapping isMember

end Calm

end Session

end Interaction
