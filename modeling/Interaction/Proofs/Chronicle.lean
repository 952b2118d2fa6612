import Interaction.Proofs.Milestones
import Interaction.Proofs.Settling
import Interaction.Proofs.Tracking

/-! The chronicle of a session: the milestones that it passes, in their order. It is kept beside
the session and does not change it. Between any two events the behaviour and the factory may come
to answer otherwise, so that whatever they are asked for may end in any way. -/

namespace Interaction

inductive Occasion where
  | event (e : Event)
  /-- The behaviour is a stand-in from now on, with these answers. -/
  | answering (state transition : Canned)
  | furnish (factory : Factory)

theorem Occasion.event_or_exchange (o : Occasion) : (∃ e, o = .event e) ∨ ∀ e, o ≠ .event e := by
  cases o with
  | event e => exact Or.inl ⟨e, rfl⟩
  | answering state transition => exact Or.inr fun e same => by cases same
  | furnish factory => exact Or.inr fun e same => by cases same

namespace Session

/-- An execution of the configuration of a state that is accepted on an occasion, and its task. Either
it is asked for from outside, or the machine asks for it. -/
inductive Executes (s : Session) : Occasion → Value → Nat → Prop where
  | direct {config : Value} {id : Nat} (accepted : (s.coordinateState config).2 = .ok id) :
      Executes s (.event (.coordinate .state config)) config id
  | machine {e : Event} {k : Milestone} {q : Consultation} {id : Nat} (passed : s.milestone? e = some k)
      (asked : k.consultation? = some q) (entry : q.entry = .state) (coordinated : q.session.behavior = .coordinated)
      (accepted : (q.session.coordinateState q.config).2 = .ok id) : Executes s (.event e) q.config id

/-- What a task that comes about with an event may start with. -/
inductive Bears (s : Session) (e : Event) (task : Nat) (frames : List Frame) : Prop where
  | plain (plain : Plain frames)
  | follower {k : Milestone} {f : Follower} (passed : s.milestone? e = some k) (left : k.follower? = some f)
      (own : f.task = task) (same : f.frames = frames)
  | situation {place : Nat} (executes : s.Executes (.event e) (.ref place) task) (same : frames = [.materialize (.ref place)])

variable {s t : Session} {task : Nat} {frames : List Frame} {supply : Supply}

theorem outline_resume (s : Session) (task : Nat) (frames : List Frame) (outcome : Outcome) :
    (s.resume task frames outcome).outline = s.outline := by
  cases outcome <;> rfl

theorem outline_move (s : Session) (task : Nat) (rest : List Frame) (move : Move) :
    (s.move task rest move).outline = s.outline := by
  cases move with
  | go frames values => rfl
  | yield frames => rfl
  | fail fault => rfl
  | await promise frames =>
    simp only [Session.move]
    split
    · exact outline_resume ..
    · rfl

theorem outline_doJob (s : Session) (job : Job) : (s.doJob job).outline = s.outline := by
  cases job with
  | run task => rfl
  | tell waiter settled =>
    cases waiter with
    | resume task => exact outline_resume ..
    | member join => rfl
    | report name =>
      simp only [doJob, reportBehavior]
      split
      · exact outline_log _ _
      · rfl

/-- A task that comes about stands before its first step. -/
theorem stands_fresh (orderly : s.Orderly s.running) (grows : s.Grows t) (new : s.schedule.promises.size ≤ task)
    (stands : t.Stands task frames supply) : supply = .values [] ∧ t.schedule.origin? task = some (.task frames) := by
  have extended := grows.extends
  cases stands with
  | turn turn =>
    rw [extended.turn] at turn
    exact absurd ((Stands.turn turn).alive orderly).1.1 (Nat.not_lt_of_le new)
  | queued _ held => exact ⟨rfl, held⟩
  | waiting noticed _ =>
    have woken := Schedule.mem_wakes.mpr (Or.inr ⟨_, extended.schedule.resumed.mp noticed⟩)
    exact absurd (orderly.schedule.alive task (List.mem_append_right _ woken)).1.1 (Nat.not_lt_of_le new)

/-- How a session goes on with an event: with a step of a task, with what comes from outside, with the
execution of a state that is asked for from outside, or without passing or starting anything but the
handling of input. -/
inductive Continues (s : Session) (e : Event) : Prop where
  | step {task : Nat} {frame : Frame} {rest : List Frame} {values : List Value} (isStep : e = .step)
      (turn : s.turn = some { task, frames := frame :: rest, values })
      (passes : s.Passes (s.takeStep frame values).1 (s.milestone? e))
  | outside (passes : s.Passes (s.happen e) (s.milestone? e))
  | direct {place : Nat} (isDirect : e = .coordinate .state (.ref place))
      (accepted : s.coordinateState (.ref place) = ((s.spawn [.materialize (.ref place)]).1, .ok s.schedule.promises.size))
  | idle (none : s.milestone? e = none) (outline : (s.happen e).outline = s.outline)
      (born : ∀ task frames supply, s.schedule.promises.size ≤ task → (s.happen e).Stands task frames supply →
        supply = .values [] ∧ Plain frames)
      (watch : s.tells? e = .none → s.SameWatch (s.happen e))

theorem continues_idle (orderly : s.Orderly s.running) (e : Event) (none : s.milestone? e = none)
    (outline : (s.happen e).outline = s.outline)
    (before : ∀ task frames supply, (s.happen e).Stands task frames supply → ∃ supply, s.Stands task frames supply)
    (watch : s.tells? e = .none → s.SameWatch (s.happen e)) : s.Continues e := by
  refine .idle none outline (fun task frames supply new stands => ?_) watch
  obtain ⟨old, stood⟩ := before task frames supply stands
  exact absurd (stood.alive orderly).1.1 (Nat.not_lt_of_le new)

theorem continues_same (orderly : s.Orderly s.running) (e : Event) (none : s.milestone? e = none) (same : s.happen e = s) :
    s.Continues e := by
  refine continues_idle orderly e none (by rw [same]) (fun task frames supply stands => ⟨supply, ?_⟩) fun _ => ?_
  · rwa [same] at stands
  · rw [same]
    exact .refl s

theorem continues_settle (orderly : s.Orderly s.running) (e : Event) (none : s.milestone? e = none) {id : Nat}
    {outcome : Outcome} {asked : Option Nat}
    (same : s.happen e = { s with asked, schedule := s.schedule.settle id outcome }) : s.Continues e := by
  have settled : (s.happen e).schedule = s.schedule.settle id outcome := by rw [same]
  have turn : (s.happen e).turn = s.turn := by rw [same]
  refine continues_idle orderly e none (same ▸ rfl) (fun task frames supply stands => ?_) fun _ => ?_
  · exact ⟨supply, (stands_settle (fun _ _ => by rw [turn]) settled).mp stands⟩
  · exact .settle settled (by rw [same]) (by rw [same])

theorem plain_input (autostart : Bool) : Plain (Runner.inputFrames autostart) := by
  cases autostart <;> simp [Plain, Runner.inputFrames, Frame.purpose?]

theorem continues_start (orderly : s.Orderly s.running) (autostart : Bool) : s.Continues (.start autostart) := by
  have begun : s.happen (.start autostart) =
      if s.turn.isNone then (s.begin (Runner.inputFrames autostart)).1 else s := rfl
  cases turn : s.turn with
  | some turn =>
    rw [turn] at begun
    exact continues_same orderly _ rfl begun
  | none =>
    rw [turn, Option.isNone_none, if_pos rfl] at begun
    refine .idle rfl (by rw [begun]; rfl) (fun task frames supply new stands => ?_) fun _ => ?_
    case refine_2 =>
      rw [begun]
      exact ⟨rfl, (SameWatch.added s { origin := .task [] } rfl).reports, rfl⟩
    rw [begun] at stands
    cases stands with
    | turn same =>
      cases same
      exact ⟨rfl, plain_input autostart⟩
    | queued queued _ =>
      have woken : task ∈ s.schedule.wakes := Schedule.mem_wakes.mpr (Or.inl queued)
      exact absurd (orderly.schedule.alive task (List.mem_append_right _ woken)).1.1 (Nat.not_lt_of_le new)
    | waiting noticed _ =>
      have added := Schedule.Extends.add s.schedule { origin := .task [] } rfl
      have woken := Schedule.mem_wakes.mpr (Or.inr ⟨_, added.resumed.mp noticed⟩)
      exact absurd (orderly.schedule.alive task (List.mem_append_right _ woken)).1.1 (Nat.not_lt_of_le new)

theorem continues (orderly : s.Orderly s.running) (e : Event) : s.Continues e := by
  have spawned (frames : List Frame) (plain : Plain frames) : s.Calm (s.spawn frames).1 := .spawn s plain
  -- Only steps, and a configuration that the coordinator is given directly, come to anything but plain work.
  cases e with
  | step =>
    cases stepped : s.step with
    | none =>
      refine continues_same orderly _ ?_ (by rw [happen, stepped, Option.getD_none])
      simp only [milestone?, (step_eq_none stepped).1]
    | some t =>
      have same : s.happen .step = t := by rw [happen, stepped, Option.getD_some]
      rcases step_cases stepped with ⟨own, values, turn, rfl⟩ | ⟨own, frame, rest, values, turn, rfl⟩ |
        ⟨job, queue, turn, next, rfl⟩
      · refine continues_idle orderly _ (by simp only [milestone?, turn]) (by rw [same]; rfl)
          (fun task frames supply stands => ?_) fun _ => ?_ <;> rw [same] at *
        · exact ⟨supply, stands_finish stands⟩
        · exact .settle rfl rfl rfl
      · refine .step rfl turn ?_
        simp only [milestone?, turn]
        exact .takeStep s own frame values orderly.tracked
      · refine continues_idle orderly _ (by simp only [milestone?, turn]) (by rw [same]; exact outline_doJob ..)
          (fun task frames supply stands => ?_) fun silent => ?_ <;> rw [same] at *
        · rw [running, turn] at orderly
          obtain ⟨before, stood, _⟩ := stands_doJob orderly turn next stands
          exact ⟨before, stood⟩
        · exact .doJob turn next silent
  | answer index outcome =>
    cases deferred : s.deferred[index]?.filter s.schedule.isPending with
    | none => exact continues_same orderly _ rfl (by simp only [happen, answer, deferred])
    | some id => exact continues_settle orderly _ rfl (by simp only [happen, answer, deferred]; rfl)
  | hear line =>
    cases asked : s.asked with
    | none => exact continues_same orderly _ rfl (by simp only [happen, hear, asked])
    | some id => exact continues_settle orderly _ rfl (by simp only [happen, hear, asked]; rfl)
  | coordinate entry config =>
    cases entry with
    | transition => exact .outside (Calm.coordinateTransition s config)
    | state =>
      rcases Calm.coordinateState_cases s config with calm | ⟨place, rfl, accepted⟩
      · exact .outside calm
      · exact .direct rfl accepted
  | call config given => exact .outside (Calm.callService s config given)
  | execute place name params => exact .outside (.execute s place name params)
  | register name place => exact .outside (Calm.register s name place)
  | expose place name label script => exact .outside (Calm.expose s place name label script)
  | addService service methods => exact .outside (Calm.addService s service methods)
  | load model => exact .outside (by rw [happen, fst_load]; exact .operate s _)
  | setRunning on => exact .outside (by rw [happen, fst_setRunning]; exact .operate s _)
  | reset => exact .outside (by rw [happen, reset_eq]; exact .operate s _)
  | fire name => exact .outside (by rw [happen, fst_fire]; exact .operate s _)
  | drain => exact .outside (spawned _ (by simp [Plain, Frame.purpose?]))
  | command line => exact .outside (spawned _ (by simp [Plain, Frame.purpose?]))
  | stop => exact .outside (spawned _ (by simp [Plain, Frame.purpose?]))
  | start autostart => exact continues_start orderly autostart
  | write store => exact .outside (Calm.store s store)

theorem Passes.outline {passed : Option Milestone} (passes : s.Passes t passed) :
    t.outline = (passed.elim s Milestone.done).outline := by
  cases passed with
  | none => exact Calm.outline passes
  | some m => exact passes.2.outline

theorem Passes.meets {passed : Option Milestone} (passes : s.Passes t passed) {m : Milestone} (same : passed = some m) :
    s.Meets m ∧ m.done.Grows t := by
  subst same
  exact ⟨passes.1, passes.2.grows⟩

theorem Passes.bears {passed : Option Milestone} (passes : s.Passes t passed) {id : Nat} {frames : List Frame}
    (new : s.schedule.promises.size ≤ id) (held : t.schedule.origin? id = some (.task frames)) :
    Plain frames ∨ ∃ k, passed = some k ∧ k.Bears id frames := by
  cases passed with
  | none => exact Or.inl (Calm.sprouts passes id frames new held)
  | some k =>
    obtain ⟨meets, calm⟩ := passes
    by_cases inside : id < k.done.schedule.promises.size
    · rw [calm.grows.extends.schedule.origin inside] at held
      exact Or.inr ⟨k, rfl, k.bears_done (meets.schedule ▸ new) held⟩
    · exact Or.inl (calm.sprouts id frames (Nat.le_of_not_lt inside) held)

theorem Bears.passes {e : Event} (passes : s.Passes t (s.milestone? e)) {id : Nat} {frames : List Frame}
    (new : s.schedule.promises.size ≤ id) (held : t.schedule.origin? id = some (.task frames)) : s.Bears e id frames := by
  rcases passes.bears new held with plain | ⟨k, passed, bears⟩
  · exact .plain plain
  · cases bears with
    | plain plain => exact .plain plain
    | follower left own same => exact .follower passed left own same
    | situation asked accepts config same =>
      exact .situation (config ▸ .machine passed asked accepts.entry accepts.coordinated accepts.accepted) same

/-- What an event leaves of the outline is what the milestone that it passes leaves. -/
theorem outline_happen (orderly : s.Orderly s.running) (e : Event) :
    (s.happen e).outline = ((s.milestone? e).elim s Milestone.done).outline := by
  rcases continues orderly e with ⟨rfl, turn, passes⟩ | passes | @⟨place, rfl, accepted⟩ | ⟨none, same, _, _⟩
  · rw [happen_step turn, outline_move]
    exact passes.outline
  · exact passes.outline
  · have happened : s.happen (.coordinate .state (.ref place)) = (s.spawn [.materialize (.ref place)]).1 :=
      congrArg Prod.fst accepted
    rw [happened]
    rfl
  · rw [none, same]
    rfl

theorem meets_happen (orderly : s.Orderly s.running) {e : Event} {m : Milestone} (passed : s.milestone? e = some m) :
    s.Meets m := by
  rcases continues orderly e with ⟨_, _, passes⟩ | passes | ⟨rfl, _⟩ | ⟨none, _, _, _⟩
  · exact (passes.meets passed).1
  · exact (passes.meets passed).1
  · cases passed
  · cases none.symm.trans passed

theorem born (orderly : s.Orderly s.running) (e : Event) (new : s.schedule.promises.size ≤ task)
    (stands : (s.happen e).Stands task frames supply) : supply = .values [] ∧ s.Bears e task frames := by
  rcases continues orderly e with ⟨rfl, turn, passes⟩ | passes | @⟨place, rfl, accepted⟩ | ⟨_, _, born, _⟩
  · obtain ⟨supplied, held⟩ := stands_new orderly turn new stands
    exact ⟨supplied, .passes passes new held⟩
  · have grows : s.Grows (s.happen e) := by
      cases passed : s.milestone? e with
      | none =>
        rw [passed] at passes
        exact Calm.grows passes
      | some m =>
        obtain ⟨meets, grown⟩ := passes.meets passed
        exact (meets.calm.grows.trans m.grows_done).trans grown
    obtain ⟨supplied, held⟩ := stands_fresh orderly grows new stands
    exact ⟨supplied, .passes passes new held⟩
  · have happened : s.happen (.coordinate .state (.ref place)) = (s.spawn [.materialize (.ref place)]).1 :=
      congrArg Prod.fst accepted
    rw [happened] at stands
    obtain ⟨supplied, held⟩ := stands_fresh orderly (.spawn s _) new stands
    obtain ⟨own, same⟩ := s.held_spawn new held
    exact ⟨supplied, .situation (.direct (by rw [accepted, own])) same⟩
  · obtain ⟨supplied, plain⟩ := born task frames supply new stands
    exact ⟨supplied, .plain plain⟩

/-- After a milestone more work may be started, and the step that passes it may end. -/
theorem grows_milestone (orderly : s.Orderly s.running) {e : Event} {m : Milestone} (passed : s.milestone? e = some m) :
    ∃ t, m.done.Grows t ∧ t.Orderly s.running ∧
      (s.happen e = t ∨ ∃ own rest move, s.running = some own ∧ s.happen e = t.move own rest move) := by
  rcases continues orderly e with ⟨rfl, turn, passes⟩ | passes | ⟨rfl, _⟩ | ⟨none, _, _, _⟩
  · refine ⟨_, (passes.meets passed).2, orderly.grows (.takeStep s _ _ orderly.tracked), Or.inr ⟨_, _, _, ?_, happen_step turn⟩⟩
    rw [running, turn]
    rfl
  · obtain ⟨meets, grown⟩ := passes.meets passed
    exact ⟨_, grown, orderly.grows ((meets.calm.grows.trans m.grows_done).trans grown), Or.inl rfl⟩
  · cases passed
  · cases none.symm.trans passed

theorem held_happen (orderly : s.Orderly s.running) {e : Event} {m : Milestone} (passed : s.milestone? e = some m)
    (new : m.session.schedule.promises.size ≤ task) (held : m.done.schedule.origin? task = some (.task frames)) :
    s.schedule.promises.size ≤ task ∧ (s.happen e).schedule.origin? task = some (.task frames) := by
  rw [(meets_happen orderly passed).schedule] at new
  obtain ⟨t, grown, _, same | ⟨own, rest, move, turn, same⟩⟩ := grows_milestone orderly passed
  all_goals
    have later := (grown.extends.schedule.origin (Schedule.origin?_inside held)).trans held
    rw [same]
  · exact ⟨new, later⟩
  · have inside := (orderly.schedule.alive own (by simp [turn])).1.1
    rw [origin?_move _ (Nat.ne_of_gt (Nat.lt_of_lt_of_le inside new))]
    exact ⟨new, later⟩

theorem begun_happen (orderly : s.Orderly s.running) {e : Event} {m : Milestone} (passed : s.milestone? e = some m)
    (begun : m.done.Begun task) : (s.happen e).Begun task := by
  obtain ⟨t, grown, ordered, same | ⟨own, rest, move, turn, same⟩⟩ := grows_milestone orderly passed
  all_goals
    have later := begun.later grown.extends.schedule
    rw [same]
  · exact later
  · rw [turn] at ordered
    exact later.move ordered rest move

theorem tracked_milestone (orderly : s.Orderly s.running) {e : Event} {m : Milestone} (passed : s.milestone? e = some m)
    {id : Nat} (tracked : id ∈ m.done.tracked) : id ∈ (s.happen e).tracked := by
  obtain ⟨t, grown, _, same | ⟨own, rest, move, _, same⟩⟩ := grows_milestone orderly passed <;> rw [same]
  · exact grown.extends.tracked tracked
  · rw [tracked_move]
    exact grown.extends.tracked tracked

/-- The task that a transition leaves behind is tracked, and stands before its first step. -/
theorem follower_born (orderly : s.Orderly s.running) {e : Event} {m : Milestone} {f : Follower}
    (passed : s.milestone? e = some m) (left : m.follower? = some f) :
    s.schedule.promises.size ≤ f.task ∧ f.task ∈ (s.happen e).tracked ∧
      .run f.task ∈ (s.happen e).schedule.queue ∧ (s.happen e).schedule.origin? f.task = some (.task f.frames) := by
  obtain ⟨fresh, known, held⟩ := m.follower_done left
  obtain ⟨new, held⟩ := held_happen orderly passed fresh held
  have tracked := tracked_milestone orderly passed known
  refine ⟨new, tracked, ?_, held⟩
  rcases (tracked_happen orderly e).2 f.task tracked with old | launched
  · exact absurd (orderly.tracked f.task old) (Nat.not_lt_of_le new)
  · exact (launched.own.ready _ held).1

theorem stands_queued (orderly : s.Orderly s.running) {steps : List Frame} (queued : .run task ∈ s.schedule.queue)
    (held : s.schedule.origin? task = some (.task steps)) :
    s.Stands task frames supply ↔ frames = steps ∧ supply = .values [] := by
  constructor
  · intro stands
    cases stands with
    | turn turn =>
      have schedule := orderly.schedule
      rw [running, turn] at schedule
      exact absurd (Schedule.mem_wakes.mpr (Or.inl queued)) schedule.running_not_woken
    | queued _ own =>
      cases held.symm.trans own
      exact ⟨rfl, rfl⟩
    | waiting noticed _ => exact False.elim (orderly.schedule.queued_not_noticed queued noticed)
  · rintro ⟨rfl, rfl⟩
    exact .queued queued held

def occur (s : Session) : Occasion → Session
  | .event e => s.happen e
  | .answering state transition => { s with behavior := .canned state transition }
  | .furnish factory => { s with coordinator := { s.coordinator with factory } }

def met? (s : Session) : Occasion → Option Milestone
  | .event e => s.milestone? e
  | _ => none

theorem occur_other {o : Occasion} (other : ∀ e, o ≠ .event e) :
    (s.occur o).schedule = s.schedule ∧ (s.occur o).turn = s.turn ∧ (s.occur o).tracked = s.tracked ∧
      (s.occur o).deferred = s.deferred ∧ (s.occur o).asked = s.asked ∧ s.met? o = none := by
  cases o with
  | event e => exact absurd rfl (other e)
  | answering state transition => exact ⟨rfl, rfl, rfl, rfl, rfl, rfl⟩
  | furnish factory => exact ⟨rfl, rfl, rfl, rfl, rfl, rfl⟩

theorem Orderly.occur (orderly : s.Orderly s.running) (o : Occasion) : (s.occur o).Orderly (s.occur o).running := by
  cases o with
  | event e => exact orderly.happen e
  | answering state transition => exact ⟨orderly.schedule, orderly.tracked, orderly.deferred, orderly.asked⟩
  | furnish factory => exact ⟨orderly.schedule, orderly.tracked, orderly.deferred, orderly.asked⟩

/-- What is settled stays so, and a promise keeps what is to settle it. -/
theorem occur_keeps (orderly : s.Orderly s.running) (o : Occasion) :
    s.schedule.promises.size ≤ (s.occur o).schedule.promises.size ∧
      (∀ id, s.schedule.outcome? id ≠ none → (s.occur o).schedule.outcome? id = s.schedule.outcome? id) ∧
      ∀ id, id < s.schedule.promises.size → (s.occur o).schedule.role? id = s.schedule.role? id := by
  cases o with
  | event e =>
    have enlarged := orderly.enlarges e
    exact ⟨enlarged.size, fun _ => enlarged.settled, fun _ => enlarged.role⟩
  | answering state transition => exact ⟨Nat.le_refl _, fun _ _ => rfl, fun _ _ => rfl⟩
  | furnish factory => exact ⟨Nat.le_refl _, fun _ _ => rfl, fun _ _ => rfl⟩

/-- Whether a task is about to take a step. -/
def Steps (s : Session) (o : Occasion) (task : Nat) : Prop :=
  o = .event .step ∧ ∃ frame rest values, s.turn = some { task, frames := frame :: rest, values }

theorem stands_other {o : Occasion} (other : ∀ e, o ≠ .event e) :
    (s.occur o).Stands task frames supply ↔ s.Stands task frames supply := by
  obtain ⟨schedule, turn, _⟩ := occur_other (s := s) other
  refine stands_congr ?_ ?_ ?_ ?_
  · intro fs vs
    rw [turn]
  · rw [schedule]
  · intro id
    rw [schedule]
  · intro fs
    rw [schedule]

/-- Without a step of its own a task stands where it stood, and may be told what it waits for. -/
theorem stands_occur (orderly : s.Orderly s.running) (o : Occasion) (inside : task < s.schedule.promises.size)
    (idle : ¬ s.Steps o task) (stands : (s.occur o).Stands task frames supply) :
    ∃ before, s.Stands task frames before ∧ s.Supplied before supply := by
  rcases o.event_or_exchange with ⟨e, rfl⟩ | other
  · rcases stands_happen orderly e inside stands with before | ⟨rfl, frame, rest, values, turn, _⟩
    · exact before
    · exact absurd ⟨rfl, frame, rest, values, turn⟩ idle
  · exact ⟨supply, (stands_other other).mp stands, Or.inl rfl⟩

/-- A task that comes about on an occasion is plain, or a transition leaves it behind, or it is that of
an execution that is accepted. -/
theorem born_occur (orderly : s.Orderly s.running) (o : Occasion) (new : s.schedule.promises.size ≤ task)
    (stands : (s.occur o).Stands task frames supply) : ∃ e, o = .event e ∧ s.Bears e task frames := by
  rcases o.event_or_exchange with ⟨e, rfl⟩ | other
  · exact ⟨e, rfl, (born orderly e new stands).2⟩
  · exact absurd (((stands_other other).mp stands).alive orderly).1.1 (Nat.not_lt_of_le new)

theorem tracked_met (orderly : s.Orderly s.running) {o : Occasion} {m : Milestone} (met : s.met? o = some m) {id : Nat}
    (tracked : id ∈ m.done.tracked) : id ∈ (s.occur o).tracked := by
  cases o with
  | event e => exact tracked_milestone orderly met tracked
  | answering state transition => cases met
  | furnish factory => cases met

theorem settles_occur (orderly : s.Orderly s.running) (o : Occasion) {id : Nat} {outcome : Outcome}
    (inside : id < s.schedule.promises.size) (settled : (s.occur o).schedule.outcome? id = some outcome) :
    s.schedule.outcome? id = some outcome ∨ ∃ e, o = .event e ∧ s.Settles e id outcome := by
  cases unsettled : s.schedule.outcome? id with
  | some before =>
    have ended : s.schedule.outcome? id ≠ none := by simp [unsettled]
    have kept := (occur_keeps orderly o).2.1 id ended
    exact Or.inl (unsettled.symm.trans (kept.symm.trans settled))
  | none =>
    cases o with
    | event e => exact Or.inr ⟨e, rfl, settles_happen orderly e inside unsettled settled⟩
    | answering state transition => cases unsettled.symm.trans settled
    | furnish factory => cases unsettled.symm.trans settled

theorem meets_occur (orderly : s.Orderly s.running) {o : Occasion} {m : Milestone} (met : s.met? o = some m) :
    s.Meets m := by
  cases o with
  | event e => exact meets_happen orderly met
  | answering state transition => cases met
  | furnish factory => cases met

/-- The machine, the configuration created last, and what was asked for are what the milestone
leaves that is passed. -/
theorem outline_occur (orderly : s.Orderly s.running) (o : Occasion) :
    let left := ((s.met? o).elim s Milestone.done).outline
    (s.occur o).outline.machine = left.machine ∧ (s.occur o).outline.created = left.created ∧
      (s.occur o).outline.appeals = left.appeals := by
  cases o with
  | event e =>
    have same := outline_happen orderly e
    exact ⟨congrArg _ same, congrArg _ same, congrArg _ same⟩
  | answering state transition => exact ⟨rfl, rfl, rfl⟩
  | furnish factory => exact ⟨rfl, rfl, rfl⟩

theorem machine_occur (orderly : s.Orderly s.running) (o : Occasion) :
    (s.occur o).machine = match s.met? o with
      | some (.operate u operation) => u.machine.map fun m => (m.operate u.store operation).1
      | _ => s.machine := by
  have same := (outline_occur orderly o).1
  cases met : s.met? o with
  | none =>
    rw [met] at same
    exact same
  | some m =>
    have before := congrArg Outline.machine (meets_occur orderly met).calm.outline
    rw [met] at same
    apply same.trans
    cases m with
    | operate u operation => exact congrArg Outline.machine (u.outline_operate operation)
    | enter u task target =>
      exact (congrArg Outline.machine (u.consult_cases .state (u.store.field target "do")).1).trans before
    | place u task config whole values => exact (congrArg Outline.machine (u.outline_place config whole values)).trans before

theorem tracked_occur (orderly : s.Orderly s.running) (o : Occasion) {root : Nat}
    (tracked : root ∈ s.tracked ∨ s.schedule.outcome? root ≠ none) :
    root ∈ (s.occur o).tracked ∨ (s.occur o).schedule.outcome? root ≠ none := by
  have still (settled : s.schedule.outcome? root ≠ none) : (s.occur o).schedule.outcome? root ≠ none := by
    rwa [(occur_keeps orderly o).2.1 root settled]
  rcases tracked with tracked | settled
  · cases o with
    | event e => exact ((tracked_happen orderly e).1 root tracked).imp_right still
    | answering state transition => exact Or.inl tracked
    | furnish factory => exact Or.inl tracked
  · exact Or.inr (still settled)

theorem drains_occur (orderly : s.Orderly s.running) (o : Occasion) {rest : List Frame} {root : Nat}
    (drains : s.Drains task rest root) : (s.occur o).Drains task rest root := by
  rcases o.event_or_exchange with ⟨e, rfl⟩ | other
  · exact drains_happen orderly e drains
  · obtain ⟨schedule, _, tracked, _⟩ := occur_other (s := s) other
    unfold Drains at drains ⊢
    rw [schedule, tracked]
    refine drains.imp_right (Or.imp_right ?_)
    rintro ⟨known, supply, stands⟩
    exact ⟨known, supply, (stands_other other).mpr stands⟩

end Session

namespace Milestone

def shown : Milestone → List Occurrence
  | .operate s o => (s.opened o).firstShown (s.entrance? o)
  | .enter s _ target => s.shows .state (s.store.field target "do")
  | .place s _ config whole values => s.recorded config whole values

theorem appeals_done (m : Milestone) : m.done.outline.appeals = m.shown ++ m.session.outline.appeals := by
  cases m with
  | operate s o => exact congrArg Outline.appeals (s.outline_operate o)
  | enter s task target => exact congrArg Outline.appeals (s.consult_cases .state (s.store.field target "do")).1
  | place s task config whole values => exact congrArg Outline.appeals (s.outline_place config whole values)

theorem shows_one (s : Session) (entry : Entry) (config : Value) : (s.shows entry config).length ≤ 1 := by
  unfold Session.shows
  split <;> simp

theorem shown_one (m : Milestone) : m.shown.length ≤ 1 := by
  cases m with
  | operate s o =>
    simp only [shown, Session.firstShown]
    split
    · simp
    · exact shows_one ..
  | enter s task target => exact shows_one ..
  | place s task config whole values =>
    simp only [shown, Session.recorded]
    split <;> simp

/-- One thing is taken down at a milestone at most. -/
theorem reverse_shown (m : Milestone) : m.shown.reverse = m.shown := by
  have one := m.shown_one
  cases shown : m.shown with
  | nil => rfl
  | cons o rest =>
    rw [shown] at one
    cases rest with
    | nil => rfl
    | cons _ _ => simp at one

end Milestone

/-- A session, and the milestones that it has passed. -/
structure Chronicle where
  session : Session
  milestones : List Milestone := []

namespace Chronicle

def occur (c : Chronicle) (o : Occasion) : Chronicle where
  session := c.session.occur o
  milestones := c.milestones ++ (c.session.met? o).toList

def course (c : Chronicle) (occasions : List Occasion) : Chronicle :=
  occasions.foldl occur c

theorem course_append (c : Chronicle) (first last : List Occasion) :
    c.course (first ++ last) = (c.course first).course last :=
  List.foldl_append

theorem along {c : Chronicle} (orderly : c.session.Orderly c.session.running) {P : Chronicle → Prop} (first : P c)
    (next : ∀ d o, d.session.Orderly d.session.running → P d → P (d.occur o)) (occasions : List Occasion) :
    (c.course occasions).session.Orderly (c.course occasions).session.running ∧ P (c.course occasions) := by
  induction occasions generalizing c with
  | nil => exact ⟨orderly, first⟩
  | cons o rest ih => exact ih (orderly.occur o) (next c o orderly first)

theorem orderly_course {c : Chronicle} (orderly : c.session.Orderly c.session.running) (occasions : List Occasion) :
    (c.course occasions).session.Orderly (c.course occasions).session.running :=
  (along orderly (P := fun _ => True) trivial (fun _ _ _ _ => trivial) occasions).1

theorem filterMap_occur {β : Type} (c : Chronicle) (o : Occasion) (g : Milestone → Option β) :
    (c.occur o).milestones.filterMap g = c.milestones.filterMap g ++ ((c.session.met? o).bind g).toList := by
  rw [occur, List.filterMap_append]
  cases c.session.met? o with
  | none => rfl
  | some k =>
    simp only [Option.toList_some, Option.bind_some, List.filterMap_cons, List.filterMap_nil]
    cases g k <;> rfl

theorem appeals_occur {c : Chronicle} (orderly : c.session.Orderly c.session.running) (o : Occasion) :
    (c.occur o).session.outline.appeals =
      (c.session.met? o).elim [] Milestone.shown ++ c.session.outline.appeals := by
  refine (Session.outline_occur orderly o).2.2.trans ?_
  cases met : c.session.met? o with
  | none => rfl
  | some k =>
    rw [Option.elim_some, k.appeals_done, congrArg Outline.appeals (Session.meets_occur orderly met).calm.outline]
    rfl

/-- What stand-ins take down is what was asked for at the milestones, in their order. -/
theorem appeals_course {c : Chronicle} (orderly : c.session.Orderly c.session.running) (occasions : List Occasion) :
    ∃ passed, (c.course occasions).milestones = c.milestones ++ passed ∧
      (c.course occasions).session.outline.appeals.reverse =
        c.session.outline.appeals.reverse ++ passed.flatMap Milestone.shown := by
  induction occasions generalizing c with
  | nil => exact ⟨[], (List.append_nil _).symm, (List.append_nil _).symm⟩
  | cons o rest ih =>
    obtain ⟨passed, milestones, appeals⟩ := ih (c := c.occur o) (orderly.occur o)
    refine ⟨(c.session.met? o).toList ++ passed, milestones.trans (List.append_assoc ..), appeals.trans ?_⟩
    rw [appeals_occur orderly, List.reverse_append, List.append_assoc, List.flatMap_append]
    congr 2
    cases c.session.met? o with
    | none => rfl
    | some k => rw [Option.elim_some, Option.toList_some, List.flatMap_singleton, k.reverse_shown]

/-- What is taken down of one kind is what was asked for of this kind at the milestones. -/
theorem trace_course {s : Session} (orderly : s.Orderly s.running) {p : Occurrence → Bool}
    (appeal : ∀ o, p o = true → o.isAppeal = true) (occasions : List Occasion) :
    let c := ({ session := s } : Chronicle).course occasions
    (c.session.trace.filter p).reverse =
      (s.trace.filter p).reverse ++ c.milestones.flatMap fun k => k.shown.filter p := by
  have among (t : Session) : t.outline.appeals.filter p = t.trace.filter p := by
    rw [Session.outline, List.filter_filter]
    apply List.filter_congr
    intro o _
    cases wanted : p o with
    | false => rfl
    | true => simp [appeal o wanted]
  intro c
  obtain ⟨passed, milestones, appeals⟩ := appeals_course (c := { session := s }) orderly occasions
  have told := congrArg (List.filter p) appeals
  rw [List.filter_append, List.filter_reverse, List.filter_reverse, among, among, List.filter_flatMap] at told
  rw [told, milestones]
  rfl

end Chronicle

end Interaction
