import Interaction.Proofs.Growth
import Interaction.Runner

/-! Runs of a session. Between any two steps anything may come from outside: answers,
lines of input, new services and methods, events, calls, and changes of the store. -/

namespace Interaction

/-- Something that happens to a session. -/
inductive Event where
  /-- The session takes a step. -/
  | step
  /-- A promise that a service left open is settled. -/
  | answer (index : Nat) (outcome : Outcome)
  /-- A line of input comes, or there is none. -/
  | hear (line : Option String)
  /-- A configuration is executed. -/
  | coordinate (entry : Entry) (config : Value)
  | call (config given : Value)
  | execute (place : Nat) (name : Value) (params : List Value)
  | register (name : Value) (place : Option Nat)
  | expose (place : Nat) (name : Value) (label : String) (script : Script)
  | addService (service : Service) (methods : List (String × Script))
  | load (model : Value)
  | setRunning (on : Bool)
  | reset
  | fire (name : Value)
  /-- Someone waits until the behaviour of all transitions has ended. -/
  | drain
  | command (line : String)
  | stop
  /-- The input is handled, unless a task has its turn. -/
  | start (autostart : Bool)
  /-- Containers are changed. -/
  | write (store : Store)

/-- Whether an event may settle a promise. -/
def Event.settles : Event → Bool
  | .step | .answer _ _ | .hear _ => true
  | _ => false

namespace Session

def happen (s : Session) : Event → Session
  | .step => s.step.getD s
  | .answer index outcome => (s.answer index outcome).1
  | .hear line => s.hear line
  | .coordinate entry config => (s.coordinate entry config).1
  | .call config given => (s.callService config given).1
  | .execute place name params => (s.execute place name params).1
  | .register name place => (s.register name place).1
  | .expose place name label script => (s.expose place name label script).1
  | .addService service methods => (s.addService service methods).1
  | .load model => (s.load model).1
  | .setRunning on => (s.setRunning on).1
  | .reset => s.reset
  | .fire name => (s.fire name).1
  | .drain => (s.spawn [.drain]).1
  | .command line => (s.spawn [.line line]).1
  | .stop => (s.spawn [.stop]).1
  | .start autostart => if s.turn.isNone then (s.begin (Runner.inputFrames autostart)).1 else s
  | .write store => { s with store }

def run (s : Session) (events : List Event) : Session :=
  events.foldl happen s

theorem run_append (s : Session) (before after : List Event) : s.run (before ++ after) = (s.run before).run after :=
  List.foldl_append

/-- Whether no work has been started. -/
structure Fresh (s : Session) : Prop where
  schedule : s.schedule = {}
  turn : s.turn = none
  tracked : s.tracked = []
  deferred : s.deferred = []
  asked : s.asked = none

/-- Whether a session comes about from one without work. -/
def Reachable (s : Session) : Prop :=
  ∃ fresh events, Fresh fresh ∧ s = fresh.run events

theorem Reachable.happen {s : Session} (reachable : s.Reachable) (e : Event) : (s.happen e).Reachable := by
  obtain ⟨fresh, events, start, rfl⟩ := reachable
  exact ⟨fresh, events ++ [e], start, (fresh.run_append events [e]).symm⟩

/-- The session with a queue that jobs have been taken out of. -/
def popped (s : Session) (queue : List Job) : Session :=
  { s with schedule := { s.schedule with queue } }

/-- What a step of a session is: the end of a task, a step of a task, or a job. -/
theorem step_cases {s t : Session} (stepped : s.step = some t) :
    (∃ task values, s.turn = some { task, frames := [], values } ∧ t = s.finish task (.ok values)) ∨
    (∃ task frame rest values, s.turn = some { task, frames := frame :: rest, values } ∧
      t = (s.takeStep frame values).1.move task rest (s.takeStep frame values).2) ∨
    (∃ job queue, s.turn = none ∧ s.schedule.queue = job :: queue ∧
      t = (s.popped queue).doJob job) := by
  unfold step at stepped
  split at stepped
  next task values turn => exact Or.inl ⟨task, values, turn, (Option.some.inj stepped).symm⟩
  next task frame rest values turn =>
    exact Or.inr (Or.inl ⟨task, frame, rest, values, turn, (Option.some.inj stepped).symm⟩)
  next turn =>
    split at stepped
    · cases stepped
    next job queue queued => exact Or.inr (Or.inr ⟨job, queue, turn, queued, (Option.some.inj stepped).symm⟩)

theorem step_eq_none {s : Session} (rest : s.step = none) : s.turn = none ∧ s.schedule.queue = [] := by
  unfold step at rest
  split at rest
  · cases rest
  · cases rest
  next idle =>
    split at rest
    next empty => exact ⟨idle, empty⟩
    · cases rest

/-- The task whose turn it is. -/
def running (s : Session) : Option Nat :=
  s.turn.map (·.task)

/-- What is always true of a session. `running` is the task whose turn it is. -/
structure Orderly (s : Session) (running : Option Nat) : Prop where
  schedule : s.schedule.Orderly running
  tracked : ∀ id ∈ s.tracked, id < s.schedule.promises.size
  deferred : ∀ id ∈ s.deferred, s.schedule.origin? id = some .outside
  asked : ∀ id, s.asked = some id → s.schedule.origin? id = some .outside

namespace Orderly

variable {s : Session} {running : Option Nat}

/-- What is kept as long as promises that are settled from outside stay so. -/
theorem after (orderly : s.Orderly running) {t : Session} {next : Option Nat} (schedule : t.schedule.Orderly next)
    (tracked : t.tracked ⊆ s.tracked) (deferred : t.deferred = s.deferred)
    (asked : ∀ id, t.asked = some id → s.asked = some id)
    (size : s.schedule.promises.size ≤ t.schedule.promises.size)
    (outside : ∀ id, s.schedule.origin? id = some .outside → t.schedule.origin? id = some .outside) :
    t.Orderly next where
  schedule := schedule
  tracked id member := Nat.lt_of_lt_of_le (orderly.tracked id (tracked member)) size
  deferred id member := outside id (orderly.deferred id (deferred ▸ member))
  asked id same := outside id (orderly.asked id (asked id same))

/-- What is kept when work is started. Promises that are settled from outside may be
among it. -/
theorem started (orderly : s.Orderly running) {t : Session} (schedule : t.schedule.Orderly running)
    (extended : s.schedule.Extends t.schedule)
    (tracked : ∀ id ∈ t.tracked, id ∉ s.tracked → id < t.schedule.promises.size)
    (deferred : ∀ id ∈ t.deferred, id ∉ s.deferred → t.schedule.origin? id = some .outside)
    (asked : ∀ id, t.asked = some id → s.asked ≠ some id → t.schedule.origin? id = some .outside) :
    t.Orderly running where
  schedule := schedule
  tracked id member := by
    by_cases old : id ∈ s.tracked
    · exact Nat.lt_of_lt_of_le (orderly.tracked id old) extended.size
    · exact tracked id member old
  deferred id member := by
    by_cases old : id ∈ s.deferred
    · have outside := orderly.deferred id old
      rw [extended.origin (Schedule.origin?_inside outside), outside]
    · exact deferred id member old
  asked id same := by
    by_cases old : s.asked = some id
    · have outside := orderly.asked id old
      rw [extended.origin (Schedule.origin?_inside outside), outside]
    · exact asked id same old

theorem queued (orderly : s.Orderly running) {t : Session} (schedule : t.schedule.Orderly running)
    (extended : s.schedule.Extends t.schedule) (tracked : t.tracked = s.tracked) (deferred : t.deferred = s.deferred)
    (asked : t.asked = s.asked) : t.Orderly running :=
  orderly.started schedule extended (fun _ member other => absurd (tracked ▸ member) other)
    (fun _ member other => absurd (deferred ▸ member) other) fun _ same other => absurd (asked ▸ same) other

theorem pending_outside (s : Schedule Frame) : s.pending.1.origin? s.promises.size = some .outside := by
  rw [Schedule.pending, Schedule.origin?_add, if_pos rfl]

theorem grows (orderly : s.Orderly running) {t : Session} (grows : s.Grows t) : t.Orderly running := by
  induction grows with
  | aside schedule turn tracked deferred asked =>
    exact orderly.queued (schedule ▸ orderly.schedule) (schedule ▸ .refl _) tracked deferred asked
  | spawn s frames => exact orderly.queued (orderly.schedule.spawn frames) (.spawn _ frames) rfl rfl rfl
  | settled s outcome => exact orderly.queued (orderly.schedule.add _ rfl (by simp)) (.add _ _ rfl) rfl rfl rfl
  | defer s =>
    refine orderly.started (orderly.schedule.add _ rfl (by simp)) (.add _ _ rfl) (fun _ member other => absurd member other)
      ?_ (fun _ member other => absurd member other)
    intro id member other
    rcases List.mem_append.mp member with old | new
    · exact absurd old other
    · rw [List.mem_singleton.mp new]
      exact pending_outside s.schedule
  | ask s =>
    refine orderly.started (orderly.schedule.add _ rfl (by simp)) (.add _ _ rfl) (fun _ member other => absurd member other)
      (fun _ member other => absurd member other) (fun id same other => ?_)
    cases same
    exact pending_outside s.schedule
  | join s inside patient =>
    exact orderly.queued (orderly.schedule.join inside patient) (.join _ inside patient) rfl rfl rfl
  | @track s id launched name =>
    have inside := launched.own.inside
    refine orderly.started (orderly.schedule.watch inside name) (.watch _ inside name) ?_
      (fun _ member other => absurd member other) (fun _ member other => absurd member other)
    intro other member fresh
    have new : other = id := by
      unfold Session.track at member
      dsimp only at member
      split at member
      · exact absurd member fresh
      · simpa [fresh] using member
    rw [new]
    exact Nat.lt_of_lt_of_le inside (Schedule.Extends.watch _ inside name).size
  | trans _ _ first last => exact last (first orderly)

theorem finish {task : Nat} (orderly : s.Orderly (some task)) (outcome : Outcome) :
    (s.finish task outcome).Orderly (s.finish task outcome).running :=
  orderly.after (orderly.schedule.finish outcome) (fun _ => id) rfl (fun _ => id)
    (Nat.le_of_eq (Schedule.size_settle ..).symm) fun id outside => by rwa [Session.finish, Schedule.origin?_settle]

theorem resume {task : Nat} (orderly : s.Orderly (some task)) (frames : List Frame) (outcome : Outcome) :
    (s.resume task frames outcome).Orderly (s.resume task frames outcome).running := by
  cases outcome with
  | error fault => exact orderly.finish _
  | ok values => exact orderly.after orderly.schedule (fun _ => id) rfl (fun _ => id) (Nat.le_refl _) fun _ => id

theorem move {task : Nat} (orderly : s.Orderly (some task)) (rest : List Frame) (move : Move) :
    (s.move task rest move).Orderly (s.move task rest move).running := by
  have notTask {id : Nat} (outside : s.schedule.origin? id = some .outside) : task ≠ id := by
    rintro rfl
    obtain ⟨_, frames, own⟩ := orderly.schedule.alive task (by simp)
    simp [own] at outside
  cases move with
  | go frames values => exact orderly.after orderly.schedule (fun _ => id) rfl (fun _ => id) (Nat.le_refl _) fun _ => id
  | fail fault => exact orderly.finish _
  | yield frames =>
    refine orderly.after (orderly.schedule.yield (frames ++ rest)) (fun _ => id) rfl (fun _ => id)
      (Nat.le_of_eq (Schedule.size_suspend ..).symm) fun id outside => ?_
    exact (Schedule.origin?_suspend ..).trans (by rw [if_neg (notTask outside), outside])
  | await promise frames =>
    unfold Session.move
    dsimp only
    split
    · exact orderly.resume _ _
    · refine orderly.after ((orderly.schedule.suspend (frames ++ rest)).await promise) (fun _ => id) rfl (fun _ => id)
        (Nat.le_of_eq ((Schedule.size_watch ..).trans (Schedule.size_suspend ..)).symm) fun id outside => ?_
      rw [Schedule.origin?_watch, Schedule.origin?_suspend, if_neg (notTask outside), outside]

theorem doJob (orderly : s.Orderly none) (turn : s.turn = none) {job : Job} {queue : List Job}
    (next : s.schedule.queue = job :: queue) :
    ((s.popped queue).doJob job).Orderly ((s.popped queue).doJob job).running := by
  cases job with
  | run task =>
    exact orderly.after (orderly.schedule.pop_run next) (fun _ => id) rfl (fun _ => id) (Nat.le_refl _) fun _ => id
  | tell waiter settled =>
    have idle : (s.popped queue).turn = none := turn
    cases waiter with
    | resume task =>
      have told : (s.popped queue).Orderly (some task) :=
        orderly.after (orderly.schedule.pop_resume next) (fun _ => id) rfl (fun _ => id) (Nat.le_refl _) fun _ => id
      exact told.resume _ _
    | member join =>
      have told := orderly.schedule.pop_member next
      have size := (s.popped queue).schedule.size_report join settled
      rw [running, Session.doJob, idle, Option.map_none]
      refine orderly.after told (fun _ => id) rfl (fun _ => id) (Nat.le_of_eq size.symm) fun other outside => ?_
      exact (Schedule.origin?_report _ join settled (by rintro _ _ _ held; cases outside.symm.trans held)).trans outside
    | report name =>
      have told : Session.Orderly { s.popped queue with tracked := s.tracked.erase settled } none :=
        orderly.after (orderly.schedule.pop_report next) List.erase_subset rfl (fun _ => id) (Nat.le_refl _) fun _ => id
      have reported := Grows.reportBehavior (s.popped queue) name settled
      rw [running, Session.doJob, reported.extends.turn, idle, Option.map_none]
      exact told.grows reported

theorem step (orderly : s.Orderly s.running) {t : Session} (stepped : s.step = some t) : t.Orderly t.running := by
  rcases step_cases stepped with ⟨task, values, turn, rfl⟩ | ⟨task, frame, rest, values, turn, rfl⟩ |
    ⟨job, queue, turn, next, rfl⟩
  · rw [running, turn] at orderly
    exact orderly.finish _
  · rw [running, turn] at orderly
    exact (orderly.grows (.takeStep s frame values orderly.tracked)).move rest _
  · rw [running, turn] at orderly
    exact orderly.doJob turn next

/-- What comes from outside and settles nothing starts work, or gives the turn to a new task. -/
theorem starts_cases {e : Event} (still : e.settles = false) :
    s.Grows (s.happen e) ∨ ∃ frames, s.turn = none ∧ s.happen e = (s.begin frames).1 := by
  cases e with
  | step | answer index outcome | hear line => cases still
  | coordinate entry config =>
    cases entry with
    | transition => exact Or.inl (Starts.coordinateTransition s config).grows
    | state => exact Or.inl (Starts.coordinateState s config).grows
  | call config given => exact Or.inl (Starts.callService s config given).grows
  | execute place name params => exact Or.inl (.execute s place name params)
  | register name place => exact Or.inl (.register s name place)
  | expose place name label script => exact Or.inl (.expose s place name label script)
  | addService service methods => exact Or.inl (.addService s service methods)
  | load model => exact Or.inl (.load s model)
  | setRunning on => exact Or.inl (.setRunning s on)
  | reset => exact Or.inl (.reset s)
  | fire name => exact Or.inl (.fire s name)
  | drain => exact Or.inl (.spawn s _)
  | command line => exact Or.inl (.spawn s _)
  | stop => exact Or.inl (.spawn s _)
  | start autostart =>
    simp only [Session.happen]
    split
    next idle => exact Or.inr ⟨_, Option.isNone_iff_eq_none.mp idle, rfl⟩
    · exact Or.inl (.refl s)
  | write store => exact Or.inl (.store s store)

/-- What comes from outside starts work, settles a promise that is left to be settled from
outside, or gives the turn to a new task. -/
theorem outside_cases (orderly : s.Orderly running) {e : Event} (outside : e ≠ .step) :
    s.Grows (s.happen e) ∨
    (∃ id outcome asked, s.schedule.origin? id = some .outside ∧ (∀ id, asked = some id → s.asked = some id) ∧
      s.happen e = { s with asked, schedule := s.schedule.settle id outcome }) ∨
    (∃ frames, s.turn = none ∧ s.happen e = (s.begin frames).1) := by
  cases e with
  | step => exact absurd rfl outside
  | answer index outcome =>
    simp only [Session.happen, answer]
    split
    · exact Or.inl (.refl s)
    next id open_ =>
      have deferred : id ∈ s.deferred := List.mem_of_getElem? (Option.eq_some_of_filter_eq_some open_)
      exact Or.inr (Or.inl ⟨id, outcome, s.asked, orderly.deferred id deferred, fun _ same => same, rfl⟩)
  | hear line =>
    simp only [Session.happen, hear]
    split
    · exact Or.inl (.refl s)
    next id asked => exact Or.inr (Or.inl ⟨id, _, none, orderly.asked id asked, fun _ same => (nomatch same), rfl⟩)
  | _ => exact (starts_cases rfl).imp_right Or.inr

theorem happen (orderly : s.Orderly s.running) (e : Event) : (s.happen e).Orderly (s.happen e).running := by
  by_cases outside : e = .step
  · subst outside
    cases stepped : s.step with
    | none => simpa only [Session.happen, stepped, Option.getD_none] using orderly
    | some t => simpa only [Session.happen, stepped, Option.getD_some] using orderly.step stepped
  rcases orderly.outside_cases outside with grows | ⟨id, outcome, asked, held, fewer, same⟩ | ⟨frames, turn, same⟩
  · rw [running, grows.extends.turn]
    exact orderly.grows grows
  · rw [same]
    refine orderly.after (orderly.schedule.settle_outside outcome held) (fun _ member => member) rfl fewer
      (Nat.le_of_eq (Schedule.size_settle ..).symm) fun other outside => ?_
    exact (Schedule.origin?_settle ..).trans outside
  · rw [same]
    rw [running, turn] at orderly
    refine orderly.after (orderly.schedule.begin []) (fun _ member => member) rfl (fun _ asked => asked)
      (Schedule.Extends.add _ _ rfl).size fun id outside => ?_
    exact ((Schedule.Extends.add _ _ rfl).origin (Schedule.origin?_inside outside)).trans outside

end Orderly

/-- Whether nothing of a session is taken away: no promise, nor what it is settled with or what is
to settle it, and no registered service or method. -/
structure Enlarges (s t : Session) : Prop where
  size : s.schedule.promises.size ≤ t.schedule.promises.size
  settled : ∀ {id}, s.schedule.outcome? id ≠ none → t.schedule.outcome? id = s.schedule.outcome? id
  role : ∀ {id}, id < s.schedule.promises.size → t.schedule.role? id = s.schedule.role? id
  coordinator : s.coordinator.Extends t.coordinator

theorem Enlarges.trans {s t u : Session} (first : s.Enlarges t) (last : t.Enlarges u) : s.Enlarges u where
  size := Nat.le_trans first.size last.size
  settled ended := by
    rw [last.settled (by rwa [first.settled ended]), first.settled ended]
  role inside := (last.role (Nat.lt_of_lt_of_le inside first.size)).trans (first.role inside)
  coordinator := first.coordinator.trans last.coordinator

theorem Enlarges.origin {s t : Session} (enlarged : s.Enlarges t) {id : Nat} {origin : Origin Frame}
    (held : s.schedule.origin? id = some origin) : t.schedule.role? id = some origin.role :=
  (enlarged.role (Schedule.origin?_inside held)).trans (Schedule.role?_origin held)

theorem Enlarges.members {s t : Session} (enlarged : s.Enlarges t) {id : Nat} (inside : id < s.schedule.promises.size) :
    t.schedule.members? id = s.schedule.members? id :=
  Schedule.members?_congr (enlarged.role inside)

theorem Enlarges.unsettled {s t : Session} (enlarged : s.Enlarges t) {id : Nat} (open_ : t.schedule.outcome? id = none) :
    s.schedule.outcome? id = none := by
  apply Classical.byContradiction
  intro ended
  exact ended ((enlarged.settled ended).symm.trans open_)

theorem Extends.enlarges {s t : Session} (extended : s.Extends t) : s.Enlarges t where
  size := extended.schedule.size
  settled ended := extended.schedule.outcome (Schedule.outcome?_inside ended)
  role inside := extended.schedule.role? inside
  coordinator := extended.coordinator

/-- Nothing is taken away when the schedule stays as it is, but for its queue and who waits. -/
theorem enlarges_same {s t : Session} (size : t.schedule.promises.size = s.schedule.promises.size)
    (outcome : ∀ id, s.schedule.outcome? id ≠ none → t.schedule.outcome? id = s.schedule.outcome? id)
    (role : ∀ id, t.schedule.role? id = s.schedule.role? id)
    (coordinator : t.coordinator = s.coordinator) : s.Enlarges t :=
  ⟨Nat.le_of_eq size.symm, fun ended => outcome _ ended, fun _ => role _, coordinator ▸ .refl _⟩

theorem enlarges_settle {s t : Session} {id : Nat} {outcome : Outcome} (schedule : t.schedule = s.schedule.settle id outcome)
    (coordinator : t.coordinator = s.coordinator) : s.Enlarges t := by
  refine enlarges_same (schedule ▸ Schedule.size_settle ..) ?_ ?_ coordinator
  · intro other ended
    rw [schedule, Schedule.outcome?_settle_kept s.schedule id outcome ended]
  · intro other
    rw [schedule, Schedule.role?_congr (Schedule.origin?_settle ..)]

theorem enlarges_resume (s : Session) (task : Nat) (frames : List Frame) (outcome : Outcome) :
    s.Enlarges (s.resume task frames outcome) := by
  cases outcome with
  | ok values => exact enlarges_same rfl (fun _ _ => rfl) (fun _ => rfl) rfl
  | error fault => exact enlarges_settle rfl rfl

theorem role?_suspend (s : Schedule Frame) {task : Nat} (there : ∃ frames, s.origin? task = some (.task frames))
    (frames : List Frame) (id : Nat) : (s.suspend task frames).role? id = s.role? id := by
  obtain ⟨old, held⟩ := there
  by_cases own : task = id
  · subst own
    simp [Schedule.role?, Schedule.origin?_suspend, held, Origin.role]
  · simp [Schedule.role?, Schedule.origin?_suspend, own]

theorem enlarges_move (s : Session) {task : Nat} (there : ∃ frames, s.schedule.origin? task = some (.task frames))
    (rest : List Frame) (move : Move) : s.Enlarges (s.move task rest move) := by
  cases move with
  | go frames values => exact enlarges_same rfl (fun _ _ => rfl) (fun _ => rfl) rfl
  | fail fault => exact enlarges_settle rfl rfl
  | yield frames =>
    exact enlarges_same (Schedule.size_suspend ..) (fun _ _ => Schedule.outcome?_suspend ..)
      (role?_suspend s.schedule there _) rfl
  | await promise frames =>
    simp only [move]
    split
    · exact enlarges_resume s task _ _
    · refine enlarges_same ((Schedule.size_watch ..).trans (Schedule.size_suspend ..))
        (fun _ _ => (Schedule.outcome?_watch ..).trans (Schedule.outcome?_suspend ..)) (fun id => ?_) rfl
      rw [Schedule.role?, Schedule.origin?_watch]
      exact role?_suspend s.schedule there _ id

theorem enlarges_doJob (s : Session) (job : Job) (queue : List Job) : s.Enlarges ((s.popped queue).doJob job) := by
  have popped : s.Enlarges (s.popped queue) := enlarges_same rfl (fun _ _ => rfl) (fun _ => rfl) rfl
  cases job with
  | run task => exact enlarges_same rfl (fun _ _ => rfl) (fun _ => rfl) rfl
  | tell waiter settled =>
    cases waiter with
    | resume task => exact popped.trans (enlarges_resume ..)
    | member join =>
      -- A join that is settled already is not settled again.
      refine popped.trans (enlarges_same (Schedule.size_report _ join settled) (fun id ended => ?_)
        (fun id => Schedule.role?_report _ join settled id) rfl)
      exact Schedule.outcome?_report _ join settled fun _ => ended
    | report name =>
      have reported := (Grows.reportBehavior (s.popped queue) name settled).extends
      exact ⟨reported.schedule.size, reported.enlarges.settled, reported.enlarges.role, reported.coordinator⟩

theorem Orderly.enlarges {s : Session} (orderly : s.Orderly s.running) (e : Event) : s.Enlarges (s.happen e) := by
  by_cases outside : e = .step
  · subst outside
    cases stepped : s.step with
    | none =>
      simp only [Session.happen, stepped, Option.getD_none]
      exact enlarges_same rfl (fun _ _ => rfl) (fun _ => rfl) rfl
    | some t =>
      simp only [Session.happen, stepped, Option.getD_some]
      rcases step_cases stepped with ⟨task, values, turn, rfl⟩ | ⟨task, frame, rest, values, turn, rfl⟩ |
        ⟨job, queue, turn, next, rfl⟩
      · exact enlarges_settle rfl rfl
      · have taken := Grows.takeStep s frame values orderly.tracked
        rw [running, turn] at orderly
        have there := ((orderly.grows taken).schedule.alive task (by simp)).2
        exact taken.extends.enlarges.trans (enlarges_move _ there rest _)
      · exact enlarges_doJob s job queue
  rcases orderly.outside_cases outside with grows | ⟨id, outcome, asked, held, fewer, same⟩ | ⟨frames, turn, same⟩
  · exact grows.extends.enlarges
  · exact same ▸ enlarges_settle rfl rfl
  · have added := Schedule.Extends.add s.schedule { origin := .task [] } rfl
    rw [same]
    exact ⟨added.size, fun ended => added.outcome (Schedule.outcome?_inside ended), added.role?, .refl _⟩

theorem Fresh.orderly {s : Session} (fresh : s.Fresh) : s.Orderly s.running := by
  obtain ⟨schedule, turn, tracked, deferred, asked⟩ := fresh
  refine ⟨?_, by simp [tracked], by simp [deferred], by simp [asked]⟩
  rw [schedule, running, turn]
  exact .empty

/-- A run of an orderly session keeps whatever everything that happens keeps. -/
theorem Orderly.along {s : Session} (orderly : s.Orderly s.running) {P : Session → Prop} (events : List Event) (first : P s)
    (next : ∀ t e, t.Orderly t.running → P t → P (t.happen e)) :
    (s.run events).Orderly (s.run events).running ∧ P (s.run events) := by
  induction events generalizing s with
  | nil => exact ⟨orderly, first⟩
  | cons e rest ih => exact ih (orderly.happen e) (next s e orderly first)

theorem Orderly.run {s : Session} (orderly : s.Orderly s.running) (events : List Event) :
    (s.run events).Orderly (s.run events).running :=
  (orderly.along (P := fun _ => True) events trivial fun _ _ _ _ => trivial).1

theorem Reachable.orderly {s : Session} (reachable : s.Reachable) : s.Orderly s.running := by
  obtain ⟨fresh, events, start, rfl⟩ := reachable
  exact start.orderly.run events

end Session

end Interaction
