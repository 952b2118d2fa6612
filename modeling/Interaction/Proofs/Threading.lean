import Interaction.Proofs.Gathering
import Interaction.Proofs.Unfolding
import Mathlib.Data.List.Forall2

/-! One thread of work. As long as nothing else is under way, at most one task of an accepted call acts
at a time: the tasks beneath it wait for it, and those beside it merely hand on a parameter. So the
run of the session goes through the evaluation of the call from its beginning to its end. -/

namespace Interaction

namespace Schedule

theorem not_open {φ : Type} (s : Schedule φ) {id : Nat} (outside : s.promises.size ≤ id) : ¬ s.Open id :=
  fun alive => absurd alive.1 (Nat.not_lt_of_le outside)

theorem queued_spawnAll {φ : Type} (s : Schedule φ) (tasks : List (List φ)) {index : Nat} (inside : index < tasks.length) :
    .run (s.promises.size + index) ∈ (s.spawnAll tasks).queue := by
  induction tasks generalizing s index with
  | nil => cases inside
  | cons frames rest ih =>
    rw [spawnAll_cons]
    cases index with
    | zero =>
      have inside : s.promises.size < (s.spawn frames).1.promises.size := by rw [size_spawn]; exact Nat.lt_succ_self _
      rw [Nat.add_zero, (Extends.spawnAll _ rest).queued inside]
      exact List.mem_append_right _ (List.mem_singleton_self _)
    | succ index =>
      have later := ih (s.spawn frames).1 (Nat.lt_of_succ_lt_succ inside)
      rw [size_spawn] at later
      rw [Nat.add_succ, ← Nat.succ_add]
      exact later

end Schedule

namespace Session

theorem queued_fan (s : Session) (mapping : Value) {values : List Value} {index : Nat} (inside : index < values.length) :
    .run (s.schedule.promises.size + index) ∈ (s.fan mapping values).schedule.queue := by
  have within : index < (itemTasks mapping values.zipIdx).length := by rwa [length_itemTasks]
  refine ((extends_fan s mapping values).queued ?_).mpr (Schedule.queued_spawnAll _ _ within)
  rw [Schedule.size_spawnAll]
  exact Nat.add_lt_add_left within _

theorem forall₂_range' {R : Nat → Value → Prop} {first : Nat} {values : List Value}
    (each : ∀ i (inside : i < values.length), R (first + i) values[i]) :
    List.Forall₂ R (List.range' first values.length) values := by
  rw [List.forall₂_iff_get]
  refine ⟨List.length_range', fun i _ inside => ?_⟩
  simpa using each i inside

variable {good : Session → Prop} {s t : Session} {id : Nat} {v : Value}

/-- Whether a property of sessions depends on the scene only, and makes them secluded. -/
structure Sheltered (good : Session → Prop) : Prop where
  seen : ∀ {s t : Session}, s.scene = t.scene → good t → good s
  secluded : ∀ {s : Session}, good s → s.Secluded

/-- Whether a task merely hands on a parameter, or has done so. -/
inductive Conveys (good : Session → Prop) (s : Session) (id : Nat) (v : Value) : Prop where
  | settled (ended : s.schedule.outcome? id = some (.ok [v]))
  | ended (stands : s.Stands id [] (.values [v]))
  | item {mapping : Value} {index : Nat} {values : List Value} (stands : s.Stands id [.mapItem mapping index v] (.values values))
      (unmapped : ∀ u, good u → u.store.mappedCall? mapping index = none)

/-- Whether the task whose turn it is merely hands on a parameter, if it takes a step. -/
def Lull (good : Session → Prop) (s : Session) : Prop :=
  ∀ task frame rest values, s.turn = some { task, frames := frame :: rest, values } → ∃ v, s.Conveys good task v

theorem Conveys.step (conveys : s.Conveys good id v) (orderly : s.Orderly s.running) (fine : good s) {frame : Frame}
    {rest : List Frame} {values : List Value} (turn : s.turn = some { task := id, frames := frame :: rest, values }) :
    s.happen .step = { s with turn := some { task := id, frames := [], values := [v] } } := by
  have stands := Stands.turn turn
  cases conveys with
  | settled ended => cases ended.symm.trans (stands.alive orderly).1.2
  | ended other => cases (other.of_turn orderly turn).1
  | item other unmapped =>
    obtain ⟨same, _⟩ := other.of_turn orderly turn
    cases same
    rw [happen_step turn, takeStep, unmapped s fine]
    rfl

theorem Conveys.happen (conveys : s.Conveys good id v) (orderly : s.Orderly s.running) (fine : good s) :
    (s.happen .step).Conveys good id v := by
  have goes {frames : List Frame} {values : List Value} (stands : s.Stands id frames (.values values)) :
      (s.happen .step).Stands id frames (.values values) ∨ ∃ rest given, s.turn = some { task := id, frames := rest, values := given } ∧
        frames = rest ∧ values = given := by
    rcases stands_happen_on orderly .step stands with ⟨after, later, supplied⟩ | ⟨_, _, same, _⟩ | ⟨_, own⟩
    · rcases supplied with rfl | ⟨_, _, same, _⟩
      · exact Or.inl later
      · cases same
    · cases same
    · obtain ⟨⟨_, rest, given⟩, turn, rfl⟩ := Option.map_eq_some_iff.mp own
      obtain ⟨same, known⟩ := stands.of_turn orderly turn
      cases known
      exact Or.inr ⟨rest, _, turn, same, rfl⟩
  cases conveys with
  | settled ended => exact .settled (((orderly.enlarges .step).settled (by simp [ended])).trans ended)
  | ended stands =>
    rcases goes stands with later | ⟨_, _, turn, rfl, rfl⟩
    · exact .ended later
    · refine .settled ?_
      have stepped : s.happen .step = s.finish id (.ok [v]) := by simp only [Session.happen, Session.step, turn, Option.getD_some]
      rw [stepped]
      exact Schedule.outcome?_settle_self (stands.alive orderly).1 _
  | item stands unmapped =>
    rcases goes stands with later | ⟨_, _, turn, rfl, rfl⟩
    · exact .item later unmapped
    · refine .ended (.turn ?_)
      rw [Conveys.step (.item stands unmapped) orderly fine turn]

/-- How much the session has under way apart from what tasks do in their own steps. -/
def unrest (s : Session) : Nat :=
  (match s.turn with
    | none => 0
    | some { frames := [], .. } => 1
    | some _ => 2) + 3 * ((s.schedule.queue.filterMap Job.run?).length + s.schedule.notices.length)

theorem unrest_resume_lt {u : Session} {outcome : Outcome} {task : Nat} {frames : List Frame} (turn : u.turn = none)
    {bound : Nat} (within : u.unrest + 3 ≤ bound) : (u.resume task frames outcome).unrest < bound := by
  have idle : u.unrest = 3 * ((u.schedule.queue.filterMap Job.run?).length + u.schedule.notices.length) := by
    simp [unrest, turn]
  cases outcome with
  | ok values =>
    have turned : (u.resume task frames (.ok values)).unrest ≤ 2 + u.unrest := by
      rw [idle]
      unfold unrest resume
      dsimp only
      cases frames <;> simp
    omega
  | error fault =>
    have settled : (u.resume task frames (.error fault)).unrest = u.unrest := by
      rw [idle]
      simp only [unrest, resume, finish, Schedule.runs_settle, (Schedule.notices_settle ..).length_eq, Nat.zero_add]
    omega

/-- What a step does that is none of a task at work: it changes nothing that can be seen, and brings
the session closer to rest. -/
theorem lull_step (orderly : s.Orderly s.running) (fine : good s) (silent : s.reports = []) (lull : s.Lull good)
    (stepped : s.step = some t) :
    t.scene = s.scene ∧ t.schedule.promises.size = s.schedule.promises.size ∧ t.unrest < s.unrest := by
  have happened : s.happen .step = t := by rw [happen, stepped, Option.getD_some]
  have untold := untold silent orderly
  rcases step_cases stepped with ⟨task, values, turn, rfl⟩ | ⟨task, frame, rest, values, turn, -⟩ |
    ⟨job, queue, turn, next, rfl⟩
  · refine ⟨rfl, Schedule.size_settle .., ?_⟩
    simp only [unrest, finish, turn, Schedule.runs_settle, (Schedule.notices_settle ..).length_eq]
    omega
  · obtain ⟨v, conveys⟩ := lull task frame rest values turn
    rw [← happened, conveys.step orderly fine turn]
    refine ⟨rfl, rfl, ?_⟩
    simp only [unrest, turn]
    omega
  · have notices := Schedule.notices_next next
    cases job with
    | run task =>
      refine ⟨rfl, rfl, ?_⟩
      have fewer : (s.popped queue).schedule.notices = s.schedule.notices := by rw [notices]; rfl
      have runs : (s.schedule.queue.filterMap Job.run?).length = (queue.filterMap Job.run?).length + 1 := by
        rw [next]
        rfl
      simp only [unrest, turn, doJob, fewer, runs]
      change _ + 3 * ((queue.filterMap Job.run?).length + _) < _
      cases (s.popped queue).schedule.frames task <;> simp only <;> omega
    | tell waiter id =>
      have fewer : s.schedule.notices.length = (s.popped queue).schedule.notices.length + 1 := by
        rw [notices, List.length_append]
        exact Nat.add_comm 1 _
      have runs : s.schedule.queue.filterMap Job.run? = queue.filterMap Job.run? := by
        rw [next]
        rfl
      have less : (s.popped queue).unrest + 3 ≤ s.unrest := by
        have : (s.popped queue).turn = none := turn
        simp only [unrest, turn, this, fewer, runs]
        change 0 + 3 * ((queue.filterMap Job.run?).length + _) + 3 ≤ _
        omega
      cases waiter with
      | resume task =>
        refine ⟨scene_resume .., ?_, unrest_resume_lt (u := s.popped queue) turn less⟩
        rw [doJob]
        cases (Schedule.outcome? (s.popped queue).schedule id).getD (.ok []) with
        | ok values => rfl
        | error fault => exact Schedule.size_settle ..
      | member join =>
        refine ⟨rfl, Schedule.size_report .., ?_⟩
        have same : ((s.popped queue).doJob (.tell (.member join) id)).unrest = (s.popped queue).unrest := by
          simp only [unrest, doJob, Schedule.runs_report, (Schedule.notices_report ..).length_eq]
        omega
      | report name => simp [tells?, turn, next] at untold

theorem Unfolds.unwatched {n : Nat} {frame : Frame} {rest : List Frame} {values : List Value} {e : Ending}
    (unfolds : Unfolds good n t (frame :: rest) values e) (fine : good t) (look : s.scene = t.scene) (secluded : s.Secluded)
    (task : Nat) (given : List Value) : (s.passed? task frame given).bind Milestone.vigil? = none := by
  have plain {frame : Frame} (plain : t.Plain frame) : (s.passed? task frame given).bind Milestone.vigil? = none := by
    cases frame with
    | act action request =>
      have shelters : (t.under s).Shelters action := plain
      rw [under_of_scene look] at shelters
      exact unwatched_act shelters request
    | invoke | follow | mapItem => rfl
    | _ => exact plain.elim
  have called (target : Target) : (s.passed? task (.call target) given).bind Milestone.vigil? = none :=
    @unwatched_call (s.announceCall target given) secluded _ _ _
  cases unfolds with
  | lost bad => exact absurd fine bad
  | go own | fail own => exact plain own
  | pause | pass | fan => rfl
  | refused | given | late | left => exact called _

/-- What a promise comes to, within `n` steps of the tasks in `line`: the first of them waits for the
second and so on, and the last one acts. -/
inductive Comes (good : Session → Prop) (s : Session) : Nat → List Nat → Nat → Ending → Prop where
  | settled {n id : Nat} {t : Session} {outcome : Outcome} (look : s.scene = t.scene)
      (ended : s.schedule.outcome? id = some outcome) : Comes good s n [] id ⟨t, some outcome⟩
  | stands {n id : Nat} {t : Session} {frames : List Frame} {values : List Value} {e : Ending} (look : s.scene = t.scene)
      (stands : s.Stands id frames (.values values)) (unfolds : Unfolds good n t frames values e) : Comes good s n [id] id e
  | waits {n m k id promise : Nat} {line : List Nat} {frames : List Frame} {first e : Ending}
      (stands : s.Stands id frames (.promise promise)) (awaited : Comes good s m line promise first)
      (later : ∀ given, first.outcome = some (.ok given) → Unfolds good k first.session frames given e)
      (otherwise : (∀ given, first.outcome ≠ some (.ok given)) → e = first) (within : m + k ≤ n) :
      Comes good s n (id :: line) id e
  | joins {n id member : Nat} {line before after : List Nat} {early late : List Value} {e : Ending}
      (join : s.schedule.role? id = some (.join (before ++ member :: after) false)) (open_ : s.schedule.outcome? id = none)
      (first : List.Forall₂ (s.Conveys good) before early) (last : List.Forall₂ (s.Conveys good) after late)
      (part : Comes good s n line member e) :
      Comes good s n line id (e.andThen fun t given => ⟨t, some (.ok (early ++ given ++ late))⟩)
  | left {n id : Nat} {t : Session} (look : s.scene = t.scene) (outside : s.schedule.origin? id = some .outside)
      (open_ : s.schedule.outcome? id = none) : Comes good s n [] id ⟨t, none⟩

/-- How far the work of a line has got with a step. -/
structure Onward (good : Session → Prop) (s t : Session) (line : List Nat) (n : Nat) (more : List Nat) (id : Nat)
    (e : Ending) : Prop where
  comes : t.Comes good n more id e
  manned : ∀ task frames supply, t.Stands task frames supply → task ∈ line ∨ s.schedule.promises.size ≤ task →
    task ∈ more ∨ ∃ v, t.Conveys good task v

theorem Comes.of_settled {n : Nat} {line : List Nat} {e : Ending} {outcome : Outcome} (comes : s.Comes good n line id e)
    (orderly : s.Orderly s.running) (ended : s.schedule.outcome? id = some outcome) :
    line = [] ∧ s.scene = e.session.scene ∧ e.outcome = some outcome := by
  cases comes with
  | settled look same => exact ⟨rfl, look, same.symm.trans ended⟩
  | stands _ stands => cases ended.symm.trans (stands.alive orderly).1.2
  | waits stands => cases ended.symm.trans (stands.alive orderly).1.2
  | joins _ open_ => cases ended.symm.trans open_
  | left _ _ open_ => cases ended.symm.trans open_

section Own

variable {frame : Frame} {rest frames next : List Frame} {values given : List Value} {u : Session} {n m k task : Nat} {e : Ending}

theorem onward_turn (orderly : s.Orderly s.running)
    (happened : s.happen .step = { u with turn := some { task := id, frames, values := given } })
    (idle : ∀ new, s.schedule.promises.size ≤ new → ¬ u.schedule.Open new) (look : u.scene = t.scene)
    (unfolds : Unfolds good m t frames given e) : s.Onward good (s.happen .step) [id] m [id] id e := by
  have later := orderly.happen .step
  rw [happened] at later ⊢
  refine ⟨.stands (t := t) look (.turn rfl) unfolds, fun task others supply stands either => ?_⟩
  rcases either with own | new
  · exact Or.inl own
  · exact absurd (stands.alive later).1 (idle task new)

theorem onward_fault (orderly : s.Orderly s.running) {fault : Fault} (happened : s.happen .step = u.finish id (.error fault))
    (alive : u.schedule.Open id) (idle : ∀ new, s.schedule.promises.size ≤ new → ¬ u.schedule.Open new)
    (look : u.scene = t.scene) : s.Onward good (s.happen .step) [id] m [] id ⟨t, some (.error fault)⟩ := by
  have later := orderly.happen .step
  rw [happened] at later ⊢
  have ended : (u.finish id (.error fault)).schedule.outcome? id = some (.error fault) :=
    Schedule.outcome?_settle_self alive _
  refine ⟨.settled (t := t) look ended, fun task others supply stands either => ?_⟩
  obtain ⟨inside, open_⟩ := (stands.alive later).1
  rcases either with own | new
  · rw [List.mem_singleton.mp own] at open_
    cases ended.symm.trans open_
  · rw [finish, Schedule.size_settle] at inside
    exact absurd ⟨inside, Schedule.Expectant.open_before open_⟩ (idle task new)

variable (orderly : s.Orderly s.running) (turn : s.turn = some { task := id, frames := frame :: rest, values })

include orderly turn

theorem own_before {move : Move} (taken : s.takeStep frame values = (u, move)) :
    s.schedule.Extends u.schedule ∧ u.running = some id ∧ u.schedule.Open id ∧
      (∃ frames, u.schedule.origin? id = some (.task frames)) ∧ s.happen .step = u.move id rest move := by
  have extended := (Grows.takeStep s frame values orderly.tracked).extends
  obtain ⟨⟨inside, open_⟩, frames, held⟩ := (Stands.turn turn).alive orderly
  have happened := happen_step turn
  rw [taken] at extended happened
  refine ⟨extended.schedule, ?_, ?_, ⟨frames, ?_⟩, happened⟩
  · rw [running, extended.turn, turn]
    rfl
  · exact ⟨Nat.lt_of_lt_of_le inside extended.schedule.size, (extended.schedule.outcome inside).trans open_⟩
  · exact (extended.schedule.origin inside).trans held

/-- The task waits for a promise, and what is new works for that. -/
theorem onward_await {promise : Nat} (taken : s.takeStep frame values = (u, .await promise next)) (open_ : u.schedule.Open promise)
    {line : List Nat} {first : Ending} (awaited : (s.happen .step).Comes good m line promise first)
    (later : ∀ given, first.outcome = some (.ok given) → Unfolds good k first.session (next ++ rest) given e)
    (otherwise : (∀ given, first.outcome ≠ some (.ok given)) → e = first)
    (fresh : ∀ task frames, s.schedule.promises.size ≤ task → u.schedule.origin? task = some (.task frames) →
      task ∈ line ∨ ∃ v, (s.happen .step).Conveys good task v) :
    s.Onward good (s.happen .step) [id] (m + k) (id :: line) id e := by
  obtain ⟨_, _, _, there, happened⟩ := own_before orderly turn taken
  have stands : (s.happen .step).Stands id (next ++ rest) (.promise promise) := happened ▸ stands_await there open_ next rest
  refine ⟨.waits stands awaited later otherwise (Nat.le_refl _), fun task frames supply stands either => ?_⟩
  rcases either with own | new
  · exact Or.inl (List.mem_cons.mpr (Or.inl (List.mem_singleton.mp own)))
  · obtain ⟨_, held⟩ := stands_new orderly turn new stands
    rw [taken] at held
    exact (fresh task frames new held).imp_left (List.mem_cons_of_mem id)

theorem queued_step {move : Move} (taken : s.takeStep frame values = (u, move)) (new : s.schedule.promises.size ≤ task)
    (queued : .run task ∈ u.schedule.queue) (held : u.schedule.origin? task = some (.task frames)) :
    (s.happen .step).Stands task frames (.values []) := by
  obtain ⟨_, running, _, _, happened⟩ := own_before orderly turn taken
  have inside := ((Stands.turn turn).alive orderly).1.1
  rw [happened, stands_move_other running (Nat.ne_of_gt (Nat.lt_of_lt_of_le inside new))]
  exact .queued queued held

/-- A service has answered, and the task takes the answer at once. -/
theorem onward_given {outcome : Outcome} {ending : Session → List Value → Ending} (same : u.schedule = s.schedule)
    (look : u.scene = t.scene) (taken : s.takeStep frame values = ((u.settled outcome).1, .await (u.settled outcome).2 next))
    (later : ∀ given, outcome = .ok given → Unfolds good m t (next ++ rest) given (ending t given)) :
    ∃ more, s.Onward good (s.happen .step) [id] m more id (Ending.andThen ⟨t, some outcome⟩ ending) := by
  obtain ⟨_, _, alive, _, happened⟩ := own_before orderly turn taken
  have ended : (u.settled outcome).1.schedule.outcome? (u.settled outcome).2 = some outcome :=
    (Schedule.outcome?_add ..).trans (if_pos rfl)
  have idle (new : Nat) (old : s.schedule.promises.size ≤ new) : ¬ (u.settled outcome).1.schedule.Open new := by
    rintro ⟨inside, open_⟩
    have inside : new < u.schedule.promises.size + 1 := Nat.lt_of_lt_of_eq inside (Schedule.size_add ..)
    rw [← same] at old
    obtain rfl : new = u.schedule.promises.size := by omega
    cases ended.symm.trans open_
  simp only [move, ended] at happened
  cases outcome with
  | ok given => exact ⟨[id], onward_turn (t := t) orderly happened idle look (later given rfl)⟩
  | error fault => exact ⟨[], onward_fault orderly happened alive idle look⟩

/-- A service has started a task for its answer, and the task waits for that. -/
theorem onward_late {steps : List Frame} {ending : Session → List Value → Ending} (same : u.schedule = s.schedule)
    (look : u.scene = t.scene) (taken : s.takeStep frame values = ((u.spawn steps).1, .await (u.spawn steps).2 next))
    (part : Unfolds good m t steps [] e)
    (later : ∀ given, e.outcome = some (.ok given) → Unfolds good k e.session (next ++ rest) given (ending e.session given)) :
    s.Onward good (s.happen .step) [id] (m + k) [id, u.schedule.promises.size] id (e.andThen ending) := by
  have first : s.schedule.promises.size = u.schedule.promises.size := by rw [same]
  have stands := queued_step orderly turn taken (Nat.le_of_eq first) (List.mem_append_right _ (List.mem_singleton_self _))
    (u.schedule.origin?_spawn _)
  obtain ⟨_, _, _, _, happened⟩ := own_before orderly turn taken
  have seen : (s.happen .step).scene = t.scene := by
    rw [happened]
    exact (scene_move ..).trans look
  have inside : u.schedule.promises.size < (u.spawn steps).1.schedule.promises.size :=
    Nat.lt_of_lt_of_eq (Nat.lt_succ_self _) (Schedule.size_spawn ..).symm
  refine onward_await orderly turn taken ⟨inside, u.schedule.outcome?_spawn _⟩ (.stands seen stands part)
    (fun given ended => ?_) Ending.andThen_other fun task frames new held => Or.inl ?_
  · rw [Ending.andThen_ok ended]
    exact later given ended
  · have within := Nat.lt_of_lt_of_eq (Schedule.origin?_inside held) (Schedule.size_spawn ..)
    exact List.mem_singleton.mpr (Nat.le_antisymm (Nat.le_of_lt_succ within) (first ▸ new))

/-- A service has left its answer to others, and the task waits for them. -/
theorem onward_left (same : u.schedule = s.schedule) (look : u.scene = t.scene)
    (taken : s.takeStep frame values = (u.defer.1, .await u.defer.2 next)) :
    s.Onward good (s.happen .step) [id] 0 [id] id ⟨t, none⟩ := by
  have first : s.schedule.promises.size = u.schedule.promises.size := by rw [same]
  obtain ⟨_, _, _, _, happened⟩ := own_before orderly turn taken
  have outside : u.defer.1.schedule.origin? u.schedule.promises.size = some .outside := Orderly.pending_outside u.schedule
  have open_ : u.defer.1.schedule.Open u.schedule.promises.size :=
    ⟨Schedule.origin?_inside outside, (Schedule.outcome?_add ..).trans (if_pos rfl)⟩
  have other : u.schedule.promises.size ≠ id := Nat.ne_of_gt (first ▸ ((Stands.turn turn).alive orderly).1.1)
  have seen : (s.happen .step).scene = t.scene := by
    rw [happened]
    exact (scene_move ..).trans look
  have left : (s.happen .step).Comes good 0 [] u.schedule.promises.size ⟨t, none⟩ := by
    refine .left seen ?_ (unsettled_step turn other (taken ▸ open_.2))
    rw [happened, origin?_move _ other]
    exact outside
  refine onward_await (k := 0) orderly turn taken open_ left (by simp) (fun _ => rfl) fun task frames new held => ?_
  have within := Nat.lt_of_lt_of_eq (Schedule.origin?_inside held) (Schedule.size_add ..)
  obtain rfl := Nat.le_antisymm (Nat.le_of_lt_succ within) (first ▸ new)
  cases outside.symm.trans held

end Own

/-- Parameters are mapped, one of which may take steps. The tasks of the other ones hand them on. -/
theorem comes_fan {before after : List Value} (orderly : s.Orderly s.running)
    (turn : s.turn = some { task := id, frames := frame :: rest, values }) (look : s.scene = t.scene) {mapping : Value}
    (taken : s.takeStep frame values = (s.fan mapping (before ++ v :: after),
      .await (s.schedule.promises.size + (before ++ v :: after).length) next))
    (alone : ∀ u, good u → ∀ index < (before ++ v :: after).length, index ≠ before.length →
      u.store.mappedCall? mapping index = none)
    (part : Unfolds good m t [.mapItem mapping before.length v] [] e) :
    (s.happen .step).Comes good m [s.schedule.promises.size + before.length]
        (s.schedule.promises.size + (before ++ v :: after).length)
        (e.andThen fun t given => ⟨t, some (.ok (before ++ given ++ after))⟩) ∧
      ∀ task frames, s.schedule.promises.size ≤ task →
        (s.fan mapping (before ++ v :: after)).schedule.origin? task = some (.task frames) →
        task ∈ [s.schedule.promises.size + before.length] ∨ ∃ w, (s.happen .step).Conveys good task w := by
  obtain ⟨_, _, _, _, happened⟩ := own_before orderly turn taken
  have own := ((Stands.turn turn).alive orderly).1.1
  have item {i : Nat} {w : Value} (held : (before ++ v :: after)[i]? = some w) :
      (s.happen .step).Stands (s.schedule.promises.size + i) [.mapItem mapping i w] (.values []) := by
    obtain ⟨inside, rfl⟩ := List.getElem?_eq_some_iff.mp held
    exact queued_step orderly turn taken (Nat.le_add_right _ i) (s.queued_fan mapping inside) (s.fan_item mapping _ inside).1
  have conveys {i : Nat} {w : Value} (held : (before ++ v :: after)[i]? = some w) (other : i ≠ before.length) :
      (s.happen .step).Conveys good (s.schedule.promises.size + i) w :=
    .item (item held) fun u fine => alone u fine i (List.getElem?_eq_some_iff.mp held).1 other
  obtain ⟨joined, unsettled⟩ := s.fan_join mapping (show before ++ v :: after ≠ [] by simp)
  constructor
  · have count : (before ++ v :: after).length = before.length + (after.length + 1) := by
      rw [List.length_append, List.length_cons]
    rw [count] at taken joined unsettled ⊢
    have other : s.schedule.promises.size + (before.length + (after.length + 1)) ≠ id := by omega
    have isJoin : (s.happen .step).schedule.role? (s.schedule.promises.size + (before.length + (after.length + 1))) =
        some (.join (List.range' s.schedule.promises.size before.length ++ (s.schedule.promises.size + before.length) ::
          List.range' (s.schedule.promises.size + before.length + 1) after.length) false) := by
      rw [← List.range'_succ, List.range'_append_1, happened, count]
      exact Schedule.role?_origin ((origin?_move _ other rest _).trans joined)
    have open_ : (s.happen .step).schedule.outcome? (s.schedule.promises.size + (before.length + (after.length + 1))) = none :=
      unsettled_step turn other (by rwa [taken])
    have first : List.Forall₂ ((s.happen .step).Conveys good) (List.range' s.schedule.promises.size before.length) before := by
      apply forall₂_range'
      intro i inside
      apply conveys
      · rw [List.getElem?_append_left inside, List.getElem?_eq_getElem inside]
      · omega
    have last : List.Forall₂ ((s.happen .step).Conveys good)
        (List.range' (s.schedule.promises.size + before.length + 1) after.length) after := by
      apply forall₂_range'
      intro i inside
      rw [Nat.add_assoc, Nat.add_assoc]
      apply conveys
      · rw [List.getElem?_append_right (by omega), show before.length + (1 + i) - before.length = i + 1 by omega,
          List.getElem?_cons_succ, List.getElem?_eq_getElem inside]
      · omega
    have seen : (s.happen .step).scene = t.scene := by
      rw [happened]
      exact (scene_move ..).trans look
    have stands := item (show (before ++ v :: after)[before.length]? = some v by simp)
    exact .joins isJoin open_ first last (.stands seen stands part)
  · intro task frames new held
    have inside := Schedule.origin?_inside held
    rw [size_fan] at inside
    obtain ⟨i, rfl⟩ := Nat.exists_eq_add_of_le new
    by_cases last : i = (before ++ v :: after).length
    · subst last
      cases joined.symm.trans held
    · by_cases own : i = before.length
      · exact Or.inl (own ▸ List.mem_singleton_self _)
      · exact Or.inr ⟨_, conveys (List.getElem?_eq_getElem (by omega)) own⟩

theorem onward_fan {before after : List Value} (orderly : s.Orderly s.running)
    (turn : s.turn = some { task := id, frames := frame :: rest, values }) (look : s.scene = t.scene)
    {mapping : Value} {ending : Session → List Value → Ending}
    (taken : s.takeStep frame values = (s.fan mapping (before ++ v :: after),
      .await (s.schedule.promises.size + (before ++ v :: after).length) next))
    (alone : ∀ u, good u → ∀ index < (before ++ v :: after).length, index ≠ before.length →
      u.store.mappedCall? mapping index = none)
    (part : Unfolds good m t [.mapItem mapping before.length v] [] e)
    (later : ∀ given, e.outcome = some (.ok given) →
      Unfolds good k e.session (next ++ rest) (before ++ given ++ after) (ending e.session given)) :
    ∃ more, s.Onward good (s.happen .step) [id] (m + k) more id (e.andThen ending) := by
  obtain ⟨comes, fresh⟩ := comes_fan orderly turn look taken alone part
  obtain ⟨joined, unsettled⟩ := s.fan_join mapping (show before ++ v :: after ≠ [] by simp)
  refine ⟨_, onward_await orderly turn taken ⟨Schedule.origin?_inside joined, unsettled⟩ comes ?_ ?_ fresh⟩
  · intro given ended
    obtain ⟨own, mapped, packed⟩ := Ending.andThen_eq_ok.mp ended
    cases packed
    rw [Ending.andThen_ok mapped, Ending.andThen_ok mapped]
    exact later own mapped
  · intro none
    have failed (given : List Value) : e.outcome ≠ some (.ok given) := fun mapped =>
      none _ (Ending.andThen_eq_ok.mpr ⟨given, mapped, rfl⟩)
    rw [Ending.andThen_other failed, Ending.andThen_other failed]

theorem onward_call (orderly : s.Orderly s.running) (sheltered : Sheltered good) (look : s.scene = t.scene) {target : Target}
    (turn : s.turn = some { task := id, frames := .call target :: rest, values })
    (unfolds : Unfolds good n t (.call target :: rest) values e) (fine : good t) :
    ∃ m < n, ∃ more, s.Onward good (s.happen .step) [id] m more id e := by
  obtain ⟨w, reception, received⟩ : ∃ w reception, t.receive target values = (w, reception) := ⟨_, _, rfl⟩
  have here : s.receive target values = (w.under s, reception) := by
    have same := receive_under s (sheltered.secluded fine) target values
    rwa [under_of_scene look, received] at same
  have taken : s.takeStep (.call target) values = _ := callTarget_receive s target values
  rw [here] at taken
  cases unfolds with
  | lost bad => exact absurd fine bad
  | refused same less =>
    cases received.symm.trans same
    obtain ⟨_, _, alive, _, happened⟩ := own_before orderly turn taken
    exact ⟨0, less, [], onward_fault orderly happened alive (fun _ => s.schedule.not_open) rfl⟩
  | @given _ m _ _ _ _ _ outcome _ same later less =>
    cases received.symm.trans same
    exact ⟨m, less, onward_given (u := w.under s) (t := w) orderly turn rfl rfl taken later⟩
  | @late _ m k _ _ _ _ _ own turns action request first _ same part later less =>
    cases received.symm.trans same
    cases own with
    | false =>
      -- The steps are left to the caller, so its own task takes them.
      obtain ⟨_, _, _, _, happened⟩ := own_before orderly turn taken
      refine ⟨m + k, less, [id], onward_turn (t := w) orderly happened (fun _ => s.schedule.not_open) rfl ?_⟩
      rw [List.append_assoc]
      exact part.append later
    | true => exact ⟨m + k, less, _, onward_late (u := w.under s) (t := w) orderly turn rfl rfl taken part later⟩
  | left same less =>
    cases received.symm.trans same
    exact ⟨0, less, _, onward_left (u := w.under s) (t := w) orderly turn rfl rfl taken⟩
  | go plain | fail plain => exact plain.elim

/-- With its own step a task gets on. -/
theorem onward_own (orderly : s.Orderly s.running) (sheltered : Sheltered good) (look : s.scene = t.scene)
    (turn : s.turn = some { task := id, frames := frame :: rest, values })
    (unfolds : Unfolds good n t (frame :: rest) values e) (fine : good t) :
    ∃ m < n, ∃ more, s.Onward good (s.happen .step) [id] m more id e := by
  have under := under_of_scene look
  have inside (new : Nat) := @Schedule.not_open _ s.schedule new
  have store : s.store = t.store := show s.scene.store = t.scene.store by rw [look]
  have called {target : Target} (same : frame = .call target) : ∃ m < n, ∃ more, s.Onward good (s.happen .step) [id] m more id e := by
    subst same
    exact onward_call orderly sheltered look turn unfolds fine
  have plainly (plain : t.Plain frame) {w : Session} {move : Move} (taken : t.takeStep frame values = (w, move)) :
      s.takeStep frame values = (w.under s, move) := by
    have same := takeStep_under s plain values
    rwa [under, taken] at same
  -- A step may call a service, which is told apart by the reply, or be a step of the unfolding by itself.
  cases unfolds with
  | lost bad => exact absurd fine bad
  | @go _ m _ w _ _ next _ given _ plain taken later less =>
    obtain ⟨_, _, _, _, happened⟩ := own_before orderly turn (plainly plain taken)
    exact ⟨m, less, [id], onward_turn (t := w) orderly happened inside rfl later⟩
  | fail plain taken less =>
    obtain ⟨_, _, alive, _, happened⟩ := own_before orderly turn (plainly plain taken)
    exact ⟨0, less, [], onward_fault orderly happened alive inside rfl⟩
  | @pause _ m _ _ _ _ later less =>
    obtain ⟨_, _, _, ⟨_, held⟩, happened⟩ := own_before orderly turn rfl
    have stands : (s.happen .step).Stands id rest (.values []) := by
      rw [happened]
      refine .queued (List.mem_append_right _ (List.mem_singleton_self _)) ?_
      exact (Schedule.origin?_suspend ..).trans (by rw [if_pos rfl, held]; rfl)
    have seen : (s.happen .step).scene = t.scene := (happened ▸ scene_move ..).trans look
    refine ⟨m, less, [id], .stands seen stands later, fun task frames supply stands either => ?_⟩
    refine either.imp_right fun new => ?_
    obtain ⟨_, held⟩ := stands_new orderly turn new stands
    exact absurd (Schedule.origin?_inside held) (Nat.not_lt_of_le new)
  | @pass _ m _ target _ _ _ idle later less =>
    have taken : s.takeStep (.map target) values =
        s.mapEach (t.store.field target.config "parameterMapping") values [.call target] := by
      rw [← store]
      rfl
    rw [← store, ← or_assoc] at idle
    rw [← store] at taken
    rcases items?_cases s.store (s.store.field target.config "parameterMapping") with unmapped | ⟨first, others, mapped⟩
    · rw [mapEach_unmapped unmapped] at taken
      obtain ⟨_, _, _, _, happened⟩ := own_before orderly turn taken
      exact ⟨m, less, [id], onward_turn orderly happened inside look later⟩
    · obtain rfl : values = [] := idle.resolve_left (by simp [mapped])
      rw [mapEach_mapped mapped] at taken
      obtain ⟨_, _, _, _, happened⟩ := own_before orderly turn taken
      obtain ⟨-, ended⟩ := s.fan_nil (s.store.field target.config "parameterMapping")
      simp only [move, List.length_nil, Nat.add_zero, ended] at happened
      refine ⟨m, less, [id], onward_turn orderly happened (fun new old alive => ?_) look later⟩
      have within := Nat.lt_of_lt_of_eq alive.1 (s.size_fan _ [])
      obtain rfl := Nat.le_antisymm (Nat.le_of_lt_succ within) old
      cases ended.symm.trans alive.2
  | @fan _ m k _ target _ mapping first v others before after first next same mapped alone part later less =>
    have taken : s.takeStep (.map target) (before ++ v :: after) = s.mapEach mapping (before ++ v :: after) [.call target] := by
      rw [← same, ← store]
      rfl
    rw [← store] at mapped
    rw [mapEach_mapped mapped] at taken
    obtain ⟨more, onward⟩ := onward_fan orderly turn look taken alone part later
    exact ⟨m + k, less, more, onward⟩
  | refused | given | late | left => exact called rfl

end Session

end Interaction
