import Interaction.Proofs.Run

/-! Where the tasks of a session stand: which steps they still have before them, and what
they will be given for the first one. A task stands somewhere else only after its own
step, or when it is told what it waits for. -/

namespace Interaction

/-- What a task is given for its next step. -/
inductive Supply where
  | values (values : List Value)
  /-- What a promise hands on. -/
  | promise (id : Nat)

/-- Where a step leaves its task, unless that ends. -/
def Move.stand? : Move → Option (List Frame × Supply)
  | .go frames values => some (frames, .values values)
  | .await promise frames => some (frames, .promise promise)
  | .yield frames => some (frames, .values [])
  | .fail _ => none

namespace Session

/-- The steps that a task still has before it, and what it is given for them. -/
inductive Stands (s : Session) (task : Nat) : List Frame → Supply → Prop where
  | turn {frames : List Frame} {values : List Value} (turn : s.turn = some { task, frames, values }) :
      Stands s task frames (.values values)
  | queued {frames : List Frame} (queued : .run task ∈ s.schedule.queue)
      (held : s.schedule.origin? task = some (.task frames)) : Stands s task frames (.values [])
  | waiting {frames : List Frame} {id : Nat} (noticed : (.resume task, id) ∈ s.schedule.notices)
      (held : s.schedule.origin? task = some (.task frames)) : Stands s task frames (.promise id)

/-- What a task is given once it has been told. -/
def Supplied (s : Session) (before after : Supply) : Prop :=
  after = before ∨
    ∃ id values, before = .promise id ∧ s.schedule.outcome? id = some (.ok values) ∧ after = .values values

variable {s t : Session} {task : Nat} {frames : List Frame} {supply : Supply}

theorem Stands.alive (stands : s.Stands task frames supply) (orderly : s.Orderly s.running) :
    s.schedule.Open task ∧ ∃ frames, s.schedule.origin? task = some (.task frames) := by
  apply orderly.schedule.alive task
  cases stands with
  | turn turn => simp [running, turn]
  | queued queued _ => exact List.mem_append_right _ (Schedule.mem_wakes.mpr (Or.inl queued))
  | waiting noticed _ => exact List.mem_append_right _ (Schedule.mem_wakes.mpr (Or.inr ⟨_, noticed⟩))

theorem Stands.not_rests {values : List Value} (stands : s.Stands task frames (.values values)) : s.step ≠ none := by
  intro rest
  obtain ⟨idle, empty⟩ := step_eq_none rest
  cases stands with
  | turn turn => cases idle.symm.trans turn
  | queued queued _ =>
    rw [empty] at queued
    cases queued

theorem Stands.of_turn (stands : s.Stands task frames supply) (orderly : s.Orderly s.running) {rest : List Frame}
    {values : List Value} (turn : s.turn = some { task, frames := rest, values }) :
    frames = rest ∧ supply = .values values := by
  have asleep : task ∉ s.schedule.wakes := by
    have schedule := orderly.schedule
    rw [running, turn] at schedule
    exact schedule.running_not_woken
  cases stands with
  | turn same =>
    rw [turn] at same
    cases same
    exact ⟨rfl, rfl⟩
  | queued queued _ => exact absurd (Schedule.mem_wakes.mpr (Or.inl queued)) asleep
  | waiting noticed _ => exact absurd (Schedule.mem_wakes.mpr (Or.inr ⟨_, noticed⟩)) asleep

theorem Stands.unique (stands : s.Stands task frames supply) (orderly : s.Orderly s.running) {others : List Frame} {other : Supply}
    (again : s.Stands task others other) : others = frames ∧ other = supply := by
  cases stands with
  | turn turn => exact again.of_turn orderly turn
  | queued queued held =>
    cases again with
    | turn turn => exact ((Stands.queued queued held).of_turn orderly turn).imp Eq.symm Eq.symm
    | queued _ own =>
      cases held.symm.trans own
      exact ⟨rfl, rfl⟩
    | waiting noticed _ => exact False.elim (orderly.schedule.queued_not_noticed queued noticed)
  | waiting noticed held =>
    cases again with
    | turn turn => exact ((Stands.waiting noticed held).of_turn orderly turn).imp Eq.symm Eq.symm
    | queued queued _ => exact False.elim (orderly.schedule.queued_not_noticed queued noticed)
    | waiting other own =>
      cases held.symm.trans own
      cases orderly.schedule.noticed_once noticed other
      exact ⟨rfl, rfl⟩

/-- A task stands where it stood if neither its turn nor what wakes it changes. -/
theorem stands_congr (turn : ∀ frames values, t.turn = some { task, frames, values } ↔
      s.turn = some { task, frames, values })
    (queued : .run task ∈ t.schedule.queue ↔ .run task ∈ s.schedule.queue)
    (noticed : ∀ id, (.resume task, id) ∈ t.schedule.notices ↔ (.resume task, id) ∈ s.schedule.notices)
    (origin : ∀ frames, t.schedule.origin? task = some (.task frames) ↔ s.schedule.origin? task = some (.task frames)) :
    t.Stands task frames supply ↔ s.Stands task frames supply := by
  constructor
  · intro stands
    cases stands with
    | turn same => exact .turn ((turn _ _).mp same)
    | queued same held => exact .queued (queued.mp same) ((origin _).mp held)
    | waiting same held => exact .waiting ((noticed _).mp same) ((origin _).mp held)
  · intro stands
    cases stands with
    | turn same => exact .turn ((turn _ _).mpr same)
    | queued same held => exact .queued (queued.mpr same) ((origin _).mpr held)
    | waiting same held => exact .waiting ((noticed _).mpr same) ((origin _).mpr held)

theorem Extends.stands (extended : s.Extends t) (inside : task < s.schedule.promises.size) :
    t.Stands task frames supply ↔ s.Stands task frames supply :=
  stands_congr (fun _ _ => by rw [extended.turn]) (extended.schedule.queued inside) (fun _ => extended.schedule.resumed)
    fun _ => by rw [extended.schedule.origin inside]

theorem mem_runs {φ : Type} {s t : Schedule φ} (runs : t.queue.filterMap Job.run? = s.queue.filterMap Job.run?)
    (task : Nat) : .run task ∈ t.queue ↔ .run task ∈ s.queue := by
  have listed (u : Schedule φ) : .run task ∈ u.queue ↔ task ∈ u.queue.filterMap Job.run? := by
    rw [List.mem_filterMap]
    refine ⟨fun queued => ⟨_, queued, rfl⟩, ?_⟩
    rintro ⟨job, queued, same⟩
    cases job <;> cases same
    exact queued
  rw [listed, listed, runs]

theorem stands_settle {id : Nat} {outcome : Outcome} (turn : ∀ frames values, t.turn = some { task, frames, values } ↔
      s.turn = some { task, frames, values })
    (schedule : t.schedule = s.schedule.settle id outcome) :
    t.Stands task frames supply ↔ s.Stands task frames supply := by
  refine stands_congr turn ?_ ?_ ?_ <;> rw [schedule]
  · exact mem_runs (Schedule.runs_settle ..) task
  · intro other
    exact (Schedule.notices_settle ..).mem_iff
  · intro frames
    rw [Schedule.origin?_settle]

theorem stands_finish {own : Nat} {outcome : Outcome} (stands : (s.finish own outcome).Stands task frames supply) :
    s.Stands task frames supply := by
  cases stands with
  | turn same => cases same
  | queued queued held =>
    rw [finish, Schedule.origin?_settle] at held
    exact .queued ((mem_runs (Schedule.runs_settle ..) task).mp queued) held
  | waiting noticed held =>
    rw [finish, Schedule.origin?_settle] at held
    exact .waiting ((Schedule.notices_settle ..).mem_iff.mp noticed) held

theorem queued_move (s : Session) {own : Nat} (other : task ≠ own) (rest : List Frame) (move : Move) :
    .run task ∈ (s.move own rest move).schedule.queue ↔ .run task ∈ s.schedule.queue := by
  cases move with
  | go fs vs => exact Iff.rfl
  | fail fault => exact mem_runs (Schedule.runs_settle ..) task
  | yield fs => simp [Session.move, Schedule.yield, Schedule.suspend, Schedule.update, other]
  | await promise fs =>
    simp only [Session.move]
    split
    next outcome settled =>
      cases outcome with
      | ok vs => exact Iff.rfl
      | error fault => exact mem_runs (Schedule.runs_settle ..) task
    next pending => exact mem_runs (Schedule.runs_watch ..) task

theorem noticed_move (s : Session) {own : Nat} (other : task ≠ own) (rest : List Frame) (move : Move) (id : Nat) :
    (.resume task, id) ∈ (s.move own rest move).schedule.notices ↔ (.resume task, id) ∈ s.schedule.notices := by
  cases move with
  | go fs vs => exact Iff.rfl
  | fail fault => exact (Schedule.notices_settle ..).mem_iff
  | yield fs =>
    have same := (s.schedule.suspend own (fs ++ rest)).notices_run own
    rw [Schedule.notices_suspend] at same
    exact iff_of_eq (congrArg _ same)
  | await promise fs =>
    simp only [Session.move]
    split
    next outcome settled =>
      cases outcome with
      | ok vs => exact Iff.rfl
      | error fault => exact (Schedule.notices_settle ..).mem_iff
    next pending =>
      rw [Schedule.mem_notices_watch, Schedule.notices_suspend]
      refine ⟨fun either => either.resolve_right ?_, Or.inl⟩
      intro new
      cases new.2
      exact other rfl

theorem origin?_move (s : Session) {own : Nat} (other : task ≠ own) (rest : List Frame) (move : Move) :
    (s.move own rest move).schedule.origin? task = s.schedule.origin? task := by
  cases move with
  | go fs vs => rfl
  | fail fault => exact Schedule.origin?_settle ..
  | yield fs => exact (Schedule.origin?_suspend ..).trans (if_neg (Ne.symm other))
  | await promise fs =>
    simp only [Session.move]
    split
    next outcome settled =>
      cases outcome with
      | ok vs => rfl
      | error fault => exact Schedule.origin?_settle ..
    next pending => exact (Schedule.origin?_watch ..).trans ((Schedule.origin?_suspend ..).trans (if_neg (Ne.symm other)))

theorem turn_move (s : Session) (own : Nat) (rest : List Frame) (move : Move) {turn : Turn}
    (same : (s.move own rest move).turn = some turn) : turn.task = own := by
  cases move with
  | go fs vs => cases same; rfl
  | fail fault => cases same
  | yield fs => cases same
  | await promise fs =>
    simp only [Session.move] at same
    split at same
    next outcome settled => cases outcome <;> cases same; rfl
    · cases same

theorem stands_move_other {own : Nat} (turn : s.running = some own) (other : task ≠ own) (rest : List Frame)
    (move : Move) : (s.move own rest move).Stands task frames supply ↔ s.Stands task frames supply := by
  refine stands_congr (fun frames values => ⟨?_, ?_⟩) (s.queued_move other rest move)
    (s.noticed_move other rest move) fun _ => iff_of_eq (congrArg (· = _) (s.origin?_move other rest move))
  · intro mine
    exact absurd (s.turn_move own rest move mine) other
  · intro mine
    rw [running, mine] at turn
    exact absurd (Option.some.inj turn) other

/-- After its own step a task stands where its move leaves it, if anywhere. -/
theorem stands_move_own (asleep : task ∉ s.schedule.wakes) {rest : List Frame}
    {move : Move} (stands : (s.move task rest move).Stands task frames supply) :
    ∃ next before, move.stand? = some (next, before) ∧ frames = next ++ rest ∧ s.Supplied before supply := by
  have unqueued : .run task ∉ s.schedule.queue := fun queued => asleep (Schedule.mem_wakes.mpr (Or.inl queued))
  have unnoticed (id : Nat) : (.resume task, id) ∉ s.schedule.notices := fun noticed =>
    asleep (Schedule.mem_wakes.mpr (Or.inr ⟨id, noticed⟩))
  have ended {outcome : Outcome} (stands : (s.finish task outcome).Stands task frames supply) : False := by
    cases stands with
    | turn same => cases same
    | queued queued _ => exact unqueued ((mem_runs (Schedule.runs_settle ..) task).mp queued)
    | waiting noticed _ => exact unnoticed _ ((Schedule.notices_settle ..).mem_iff.mp noticed)
  have going {fs : List Frame} {vs : List Value}
      (stands : ({ s with turn := some { task, frames := fs, values := vs } } : Session).Stands task frames supply) :
      frames = fs ∧ supply = .values vs := by
    cases stands with
    | turn same => cases same; exact ⟨rfl, rfl⟩
    | queued queued _ => exact absurd queued unqueued
    | waiting noticed _ => exact absurd noticed (unnoticed _)
  have kept (fs : List Frame) {found : List Frame}
      (held : (s.schedule.suspend task fs).origin? task = some (.task found)) : found = fs := by
    rw [Schedule.origin?_suspend, if_pos rfl] at held
    obtain ⟨_, _, same⟩ := Option.map_eq_some_iff.mp held
    cases same
    rfl
  -- Nothing else has woken the task, so it stands where its own move has left it.
  cases move with
  | go fs vs =>
    obtain ⟨rfl, rfl⟩ := going stands
    exact ⟨fs, _, rfl, rfl, Or.inl rfl⟩
  | fail fault => exact False.elim (ended stands)
  | yield fs =>
    refine ⟨fs, .values [], rfl, ?_⟩
    cases stands with
    | turn same => cases same
    | queued queued held => exact ⟨kept _ held, Or.inl rfl⟩
    | waiting noticed _ =>
      have old := (s.schedule.suspend task (fs ++ rest)).notices_run task
      rw [Schedule.notices_suspend] at old
      exact absurd (old ▸ noticed) (unnoticed _)
  | await promise fs =>
    refine ⟨fs, .promise promise, rfl, ?_⟩
    unfold Session.move at stands
    dsimp only at stands
    split at stands
    next outcome settled =>
      cases outcome with
      | error fault => exact False.elim (ended stands)
      | ok vs =>
        obtain ⟨rfl, rfl⟩ := going stands
        exact ⟨rfl, Or.inr ⟨promise, vs, rfl, settled, rfl⟩⟩
    next pending =>
      cases stands with
      | turn same => cases same
      | queued queued _ => exact absurd ((mem_runs (Schedule.runs_watch ..) task).mp queued) unqueued
      | waiting noticed held =>
        rcases Schedule.mem_notices_watch.mp noticed with old | ⟨_, new⟩
        · rw [Schedule.notices_suspend] at old
          exact absurd old (unnoticed _)
        · cases new
          rw [Schedule.origin?_watch] at held
          exact ⟨kept _ held, Or.inl rfl⟩

theorem stands_await (there : ∃ frames, s.schedule.origin? task = some (.task frames)) {promise : Nat}
    (unsettled : s.schedule.Open promise) (fs rest : List Frame) :
    (s.move task rest (.await promise fs)).Stands task (fs ++ rest) (.promise promise) := by
  obtain ⟨_, own⟩ := there
  simp only [Session.move, unsettled.2]
  refine .waiting ?_ ?_
  · rw [Schedule.mem_notices_watch, Schedule.size_suspend]
    exact Or.inr ⟨unsettled.1, rfl⟩
  · rw [Schedule.origin?_watch, Schedule.origin?_suspend, if_pos rfl, own]
    rfl

theorem schedule_reportBehavior (s : Session) (name : Value) (id : Nat) :
    (s.reportBehavior name id).schedule = s.schedule := by
  unfold reportBehavior
  dsimp only
  split <;> rfl

theorem stands_doJob_other (turn : s.turn = none) {job : Job} {queue : List Job} (next : s.schedule.queue = job :: queue)
    (unqueued : job ≠ .run task) (untold : ∀ id, job ≠ .tell (.resume task) id) :
    ((s.popped queue).doJob job).Stands task frames supply ↔ s.Stands task frames supply := by
  have popped : (s.popped queue).Stands task frames supply ↔ s.Stands task frames supply := by
    refine stands_congr (fun _ _ => Iff.rfl) ?_ ?_ fun _ => Iff.rfl
    · rw [next, List.mem_cons]
      exact ⟨Or.inr, fun either => either.resolve_left (Ne.symm unqueued)⟩
    · intro id
      rw [Schedule.notices_next next, List.mem_append]
      refine ⟨Or.inr, fun either => either.resolve_left ?_⟩
      intro own
      cases job with
      | run other => cases own
      | tell waiter told =>
        cases List.mem_singleton.mp own
        exact untold id rfl
  have none_mine (frames : List Frame) (values : List Value) :
      (none : Option Turn) = some { task, frames, values } ↔ (s.popped queue).turn = some { task, frames, values } := by
    rw [show (s.popped queue).turn = none from turn]
  rw [← popped]
  cases job with
  | run other =>
    refine stands_congr ?_ Iff.rfl (fun _ => Iff.rfl) fun _ => Iff.rfl
    intro fs vs
    rw [← none_mine]
    exact ⟨fun same => absurd (by cases same; rfl) unqueued, fun same => (nomatch same)⟩
  | tell waiter id =>
    cases waiter with
    | resume other =>
      simp only [doJob]
      cases (Schedule.outcome? (s.popped queue).schedule id).getD (.ok []) with
      | error fault => exact stands_settle none_mine rfl
      | ok values =>
        refine stands_congr ?_ Iff.rfl (fun _ => Iff.rfl) fun _ => Iff.rfl
        intro fs vs
        rw [← none_mine]
        exact ⟨fun same => absurd (by cases same; rfl) (untold id), fun same => (nomatch same)⟩
    | member join =>
      refine stands_congr (fun _ _ => Iff.rfl) (mem_runs (Schedule.runs_report ..) task)
        (fun _ => (Schedule.notices_report ..).mem_iff) fun frames => ?_
      exact Schedule.origin?_report_task (s.popped queue).schedule join id
    | report name =>
      have same := schedule_reportBehavior (s.popped queue) name id
      have turn := (Grows.reportBehavior (s.popped queue) name id).extends.turn
      exact stands_congr (fun _ _ => by rw [doJob, turn]) (by rw [doJob, same]) (fun _ => by rw [doJob, same])
        fun _ => by rw [doJob, same]

theorem stands_doJob (orderly : s.Orderly none) (turn : s.turn = none) {job : Job} {queue : List Job}
    (next : s.schedule.queue = job :: queue) (stands : ((s.popped queue).doJob job).Stands task frames supply) :
    ∃ before, s.Stands task frames before ∧ s.Supplied before supply := by
  have first : job ∈ s.schedule.queue := next ▸ List.mem_cons_self ..
  have fewer {other : Job} (queued : other ∈ (s.popped queue).schedule.queue) : other ∈ s.schedule.queue :=
    next ▸ List.mem_cons_of_mem _ queued
  have older {waiter : Waiter} {id : Nat} (noticed : (waiter, id) ∈ (s.popped queue).schedule.notices) :
      (waiter, id) ∈ s.schedule.notices := by
    rw [Schedule.notices_next next]
    exact List.mem_append_right _ noticed
  have steps (woken : task ∈ s.schedule.wakes) :
      s.schedule.origin? task = some (.task ((s.popped queue).schedule.frames task)) := by
    obtain ⟨_, frames, held⟩ := orderly.schedule.alive task woken
    have same : (s.popped queue).schedule.origin? task = some (.task frames) := held
    rw [Schedule.frames_eq same, held]
  by_cases queued : job = .run task
  · subst queued
    cases stands with
    | turn same =>
      cases same
      exact ⟨_, .queued first (steps (Schedule.mem_wakes.mpr (Or.inl first))), Or.inl rfl⟩
    | queued queued held => exact ⟨_, .queued (fewer queued) held, Or.inl rfl⟩
    | waiting noticed held => exact ⟨_, .waiting (older noticed) held, Or.inl rfl⟩
  by_cases told : ∃ id, job = .tell (.resume task) id
  · obtain ⟨id, rfl⟩ := told
    have noticed : (.resume task, id) ∈ s.schedule.notices := Schedule.mem_notices.mpr (Or.inl first)
    have held := steps (Schedule.mem_wakes.mpr (Or.inr ⟨id, noticed⟩))
    have settled := orderly.schedule.told _ _ first
    have known : (s.popped queue).schedule.outcome? id = s.schedule.outcome? id := rfl
    cases ended : s.schedule.outcome? id with
    | none => exact absurd ended settled
    | some outcome =>
      simp only [doJob, known, ended, Option.getD_some] at stands
      cases outcome with
      | ok values =>
        cases stands with
        | turn same =>
          cases same
          exact ⟨_, .waiting noticed held, Or.inr ⟨id, values, rfl, ended, rfl⟩⟩
        | queued queued held => exact ⟨_, .queued (fewer queued) held, Or.inl rfl⟩
        | waiting noticed held => exact ⟨_, .waiting (older noticed) held, Or.inl rfl⟩
      | error fault =>
        cases stands_finish stands with
        | turn same => cases same.symm.trans turn
        | queued queued held => exact ⟨_, .queued (fewer queued) held, Or.inl rfl⟩
        | waiting noticed held => exact ⟨_, .waiting (older noticed) held, Or.inl rfl⟩
  · exact ⟨supply, (stands_doJob_other turn next queued (not_exists.mp told)).mp stands, Or.inl rfl⟩

theorem stands_doJob_on (orderly : s.Orderly none) (turn : s.turn = none) {job : Job} {queue : List Job}
    (next : s.schedule.queue = job :: queue) (stands : s.Stands task frames supply) :
    (∃ after, ((s.popped queue).doJob job).Stands task frames after ∧ s.Supplied supply after) ∨
      ∃ id fault, supply = .promise id ∧ s.schedule.outcome? id = some (.error fault) ∧
        ((s.popped queue).doJob job).schedule.outcome? task = some (.error fault) := by
  have first : job ∈ s.schedule.queue := next ▸ List.mem_cons_self ..
  have steps {found : List Frame} (held : s.schedule.origin? task = some (.task found)) :
      (s.popped queue).schedule.frames task = found := Schedule.frames_eq held
  by_cases queued : job = .run task
  · subst queued
    cases stands with
    | turn same => rw [turn] at same; cases same
    | queued _ held => exact Or.inl ⟨_, .turn (by rw [doJob, steps held]), Or.inl rfl⟩
    | waiting noticed _ => exact False.elim (orderly.schedule.queued_not_noticed first noticed)
  by_cases told : ∃ id, job = .tell (.resume task) id
  · obtain ⟨id, rfl⟩ := told
    have own : (.resume task, id) ∈ s.schedule.notices := Schedule.mem_notices.mpr (Or.inl first)
    cases stands with
    | turn same => rw [turn] at same; cases same
    | queued queued _ => exact False.elim (orderly.schedule.queued_not_noticed queued own)
    | waiting noticed held =>
      cases orderly.schedule.noticed_once own noticed
      have unsettled := (orderly.schedule.alive task (Schedule.mem_wakes.mpr (Or.inr ⟨id, own⟩))).1
      obtain ⟨outcome, ended⟩ := Option.ne_none_iff_exists'.mp (orderly.schedule.told _ _ first)
      have known : (s.popped queue).schedule.outcome? id = some outcome := ended
      simp only [doJob, known, Option.getD_some, steps held]
      cases outcome with
      | ok values => exact Or.inl ⟨.values values, .turn rfl, Or.inr ⟨id, values, rfl, ended, rfl⟩⟩
      | error fault =>
        exact Or.inr ⟨id, fault, rfl, ended, Schedule.outcome?_settle_self (s := (s.popped queue).schedule) unsettled _⟩
  · exact Or.inl ⟨supply, (stands_doJob_other turn next queued (not_exists.mp told)).mpr stands, Or.inl rfl⟩

theorem stands_outside (orderly : s.Orderly s.running) {e : Event} (outside : e ≠ .step)
    (inside : task < s.schedule.promises.size) :
    (s.happen e).Stands task frames supply ↔ s.Stands task frames supply := by
  rcases orderly.outside_cases outside with grows | ⟨id, outcome, asked, _, _, same⟩ | ⟨fs, turn, same⟩
  · exact grows.extends.stands inside
  · rw [same]
    exact stands_settle (fun _ _ => Iff.rfl) rfl
  · have added := Schedule.Extends.add s.schedule { origin := .task [] } rfl
    rw [same]
    refine stands_congr ?_ (added.queued inside) (fun _ => added.resumed) ?_
    · intro fs vs
      rw [turn]
      refine ⟨?_, fun same => (nomatch same)⟩
      intro same
      cases same
      exact absurd inside (Nat.lt_irrefl _)
    · intro _
      exact iff_of_eq (congrArg (· = _) (added.origin inside))

theorem happen_step {frame : Frame} {rest : List Frame} {values : List Value}
    (turn : s.turn = some { task, frames := frame :: rest, values }) :
    s.happen .step = (s.takeStep frame values).1.move task rest (s.takeStep frame values).2 := by
  simp only [happen, step, turn, Option.getD_some]

/-- The task whose turn it is is still there after the first half of its step. -/
theorem takeStep_there (orderly : s.Orderly s.running) {frame : Frame} {rest : List Frame} {values : List Value}
    (turn : s.turn = some { task, frames := frame :: rest, values }) :
    ∃ frames, (s.takeStep frame values).1.schedule.origin? task = some (.task frames) := by
  have taken := Grows.takeStep s frame values orderly.tracked
  rw [running, turn] at orderly
  exact ((orderly.grows taken).schedule.alive task (by simp)).2

theorem enlarges_step (orderly : s.Orderly s.running) {frame : Frame} {rest : List Frame} {values : List Value}
    (turn : s.turn = some { task, frames := frame :: rest, values }) :
    (s.takeStep frame values).1.Enlarges (s.happen .step) := by
  rw [happen_step turn]
  exact enlarges_move _ (takeStep_there orderly turn) rest _

theorem stands_own (orderly : s.Orderly s.running) {frame : Frame} {rest : List Frame} {values : List Value}
    (turn : s.turn = some { task, frames := frame :: rest, values }) (stands : (s.happen .step).Stands task frames supply) :
    ∃ next before, (s.takeStep frame values).2.stand? = some (next, before) ∧ frames = next ++ rest ∧
      (s.takeStep frame values).1.Supplied before supply := by
  have asleep := (orderly.grows (.takeStep s frame values orderly.tracked)).schedule
  rw [running, turn] at asleep
  rw [happen_step turn] at stands
  exact stands_move_own asleep.running_not_woken stands

theorem stands_happen (orderly : s.Orderly s.running) (e : Event) (inside : task < s.schedule.promises.size)
    (stands : (s.happen e).Stands task frames supply) :
    (∃ before, s.Stands task frames before ∧ s.Supplied before supply) ∨
    (e = .step ∧ ∃ frame rest values, s.turn = some { task, frames := frame :: rest, values } ∧
      ∃ next before, (s.takeStep frame values).2.stand? = some (next, before) ∧ frames = next ++ rest ∧
        (s.takeStep frame values).1.Supplied before supply) := by
  by_cases outside : e = .step
  · subst outside
    cases stepped : s.step with
    | none => exact Or.inl ⟨supply, by simpa only [happen, stepped, Option.getD_none] using stands, Or.inl rfl⟩
    | some t =>
      simp only [happen, stepped, Option.getD_some] at stands
      rcases step_cases stepped with ⟨own, values, turn, rfl⟩ | ⟨own, frame, rest, values, turn, rfl⟩ |
        ⟨job, queue, turn, next, rfl⟩
      · exact Or.inl ⟨supply, stands_finish stands, Or.inl rfl⟩
      · by_cases other : task = own
        · subst other
          rw [← happen_step turn] at stands
          exact Or.inr ⟨rfl, frame, rest, values, turn, stands_own orderly turn stands⟩
        · have extended := (Grows.takeStep s frame values orderly.tracked).extends
          have running : (s.takeStep frame values).1.running = some own := by
            rw [Session.running, extended.turn, turn]
            rfl
          have before := (stands_move_other running other rest _).mp stands
          exact Or.inl ⟨supply, (extended.stands inside).mp before, Or.inl rfl⟩
      · rw [running, turn] at orderly
        exact Or.inl (stands_doJob orderly turn next stands)
  · exact Or.inl ⟨supply, (stands_outside orderly outside inside).mp stands, Or.inl rfl⟩

/-- A task goes on to stand where it stands, until it is told what it waits for or takes
a step. -/
theorem stands_happen_on (orderly : s.Orderly s.running) (e : Event) (stands : s.Stands task frames supply) :
    (∃ after, (s.happen e).Stands task frames after ∧ s.Supplied supply after) ∨
      (∃ id fault, supply = .promise id ∧ s.schedule.outcome? id = some (.error fault) ∧
        (s.happen e).schedule.outcome? task = some (.error fault)) ∨
      (e = .step ∧ s.running = some task) := by
  have inside := (stands.alive orderly).1.1
  by_cases outside : e = .step
  · subst outside
    cases stepped : s.step with
    | none => exact Or.inl ⟨supply, by simpa only [happen, stepped, Option.getD_none] using stands, Or.inl rfl⟩
    | some t =>
      simp only [happen, stepped, Option.getD_some]
      rcases step_cases stepped with ⟨own, values, turn, rfl⟩ | ⟨own, frame, rest, values, turn, rfl⟩ |
        ⟨job, queue, turn, next, rfl⟩
      · have running : s.running = some own := by rw [running, turn]; rfl
        by_cases other : task = own
        · exact Or.inr (Or.inr ⟨trivial, other ▸ running⟩)
        · refine Or.inl ⟨supply, (stands_settle ?_ rfl).mpr stands, Or.inl rfl⟩
          intro fs vs
          constructor <;> intro mine
          · cases mine
          · rw [turn] at mine
            cases mine
            exact absurd rfl other
      · have extended := (Grows.takeStep s frame values orderly.tracked).extends
        have running : s.running = some own := by rw [running, turn]; rfl
        by_cases other : task = own
        · exact Or.inr (Or.inr ⟨trivial, other ▸ running⟩)
        · have still : (s.takeStep frame values).1.running = some own := by
            rw [Session.running, extended.turn]
            exact running
          exact Or.inl ⟨supply, (stands_move_other still other rest _).mpr ((extended.stands inside).mpr stands), Or.inl rfl⟩
      · rw [running, turn] at orderly
        exact (stands_doJob_on orderly turn next stands).imp_right Or.inl
  · exact Or.inl ⟨supply, (stands_outside orderly outside inside).mpr stands, Or.inl rfl⟩

theorem stands_new (orderly : s.Orderly s.running) {own : Nat} {frame : Frame} {rest : List Frame} {values : List Value}
    (turn : s.turn = some { task := own, frames := frame :: rest, values }) (new : s.schedule.promises.size ≤ task)
    (stands : (s.happen .step).Stands task frames supply) :
    supply = .values [] ∧ (s.takeStep frame values).1.schedule.origin? task = some (.task frames) := by
  have extended := (Grows.takeStep s frame values orderly.tracked).extends
  have running : s.running = some own := by rw [running, turn]; rfl
  have still : (s.takeStep frame values).1.running = some own := by
    rw [Session.running, extended.turn]
    exact running
  have inside : own < s.schedule.promises.size := by
    rw [running] at orderly
    exact (orderly.schedule.alive own (by simp)).1.1
  have other : task ≠ own := Nat.ne_of_gt (Nat.lt_of_lt_of_le inside new)
  rw [happen_step turn, stands_move_other still other] at stands
  cases stands with
  | turn same =>
    rw [extended.turn, turn] at same
    cases same
    exact absurd rfl other
  | queued _ held => exact ⟨rfl, held⟩
  | waiting noticed _ =>
    have woken := Schedule.mem_wakes.mpr (Or.inr ⟨_, extended.schedule.resumed.mp noticed⟩)
    have old := (orderly.schedule.alive task (List.mem_append_right _ woken)).1.1
    exact absurd old (Nat.not_lt_of_le new)

end Session

end Interaction
