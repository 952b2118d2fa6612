import Interaction.Proofs.Standing

/-! What a session keeps track of: the behaviour of a transition before any of it has run, and
until its promise is settled. A task that waits for behaviour goes on only after that. -/

namespace Interaction.Session

variable {s t : Session} {task id root : Nat}

/-- The end of a step of a task starts no behaviour that is about to begin. -/
theorem Begun.move (begun : s.Begun id) (orderly : s.Orderly (some task)) (rest : List Frame) (move : Move) :
    (s.move task rest move).Begun id := by
  have there := (orderly.schedule.alive task (by simp)).2
  have enlarged := s.enlarges_move there rest move
  have asleep : .run task ∉ s.schedule.queue := fun queued =>
    orderly.schedule.running_not_woken (Schedule.mem_wakes.mpr (Or.inl queued))
  have other : id ≠ task := by
    rintro rfl
    obtain ⟨frames, held⟩ := there
    exact asleep (begun.ready frames held).1
  constructor
  case inside => exact Nat.lt_of_lt_of_le begun.inside enlarged.size
  case single => rw [enlarged.members begun.inside, begun.single]
  case ready =>
    intro frames held
    rw [s.origin?_move other] at held
    obtain ⟨queued, work⟩ := begun.ready frames held
    exact ⟨(s.queued_move other rest move).mpr queued, work⟩

theorem Launched.move (launched : s.Launched root) (orderly : s.Orderly (some task)) (rest : List Frame) (move : Move) :
    (s.move task rest move).Launched root := by
  refine ⟨launched.own.move orderly rest move, fun id member => (launched.first id ?_).move orderly rest move⟩
  have other : root ≠ task := by
    rintro rfl
    obtain ⟨_, frames, held⟩ := orderly.schedule.alive root (by simp)
    have queued := (launched.own.ready frames held).1
    exact orderly.schedule.running_not_woken (Schedule.mem_wakes.mpr (Or.inl queued))
  rwa [awaited, Schedule.frames_congr (s.origin?_move other rest move)] at member

theorem tracked_resume (s : Session) (task : Nat) (frames : List Frame) (outcome : Outcome) :
    (s.resume task frames outcome).tracked = s.tracked := by
  cases outcome <;> rfl

theorem tracked_move (s : Session) (task : Nat) (rest : List Frame) (move : Move) :
    (s.move task rest move).tracked = s.tracked := by
  cases move with
  | go frames values => rfl
  | fail fault => rfl
  | yield frames => rfl
  | await promise frames =>
    simp only [Session.move]
    split
    · exact tracked_resume ..
    · rfl

/-- What is tracked after a job was tracked before it, and only what is settled is tracked no
more. -/
theorem tracked_doJob (orderly : s.Orderly none) {job : Job} {queue : List Job} (next : s.schedule.queue = job :: queue) :
    (∀ id ∈ s.tracked, id ∈ ((s.popped queue).doJob job).tracked ∨ s.schedule.outcome? id ≠ none) ∧
      ∀ id ∈ ((s.popped queue).doJob job).tracked, id ∈ s.tracked ∨ ((s.popped queue).doJob job).Launched id := by
  have first : job ∈ s.schedule.queue := next ▸ List.mem_cons_self ..
  have unchanged (same : ((s.popped queue).doJob job).tracked = s.tracked) :
      (∀ id ∈ s.tracked, id ∈ ((s.popped queue).doJob job).tracked ∨ s.schedule.outcome? id ≠ none) ∧
        ∀ id ∈ ((s.popped queue).doJob job).tracked, id ∈ s.tracked ∨ ((s.popped queue).doJob job).Launched id :=
    ⟨fun _ member => Or.inl (same ▸ member), fun _ member => Or.inl (same ▸ member)⟩
  cases job with
  | run task => exact unchanged rfl
  | tell waiter settled =>
    cases waiter with
    | resume task => exact unchanged (tracked_resume ..)
    | member join => exact unchanged rfl
    | report name =>
      have reported := (Grows.reportBehavior (s.popped queue) name settled).extends
      constructor
      · intro id member
        by_cases same : id = settled
        · subst same
          exact Or.inr (orderly.schedule.told _ _ first)
        · exact Or.inl (reported.tracked ((List.mem_erase_of_ne same).mpr member))
      · intro id member
        exact (reported.launched id member).imp_left List.mem_of_mem_erase

theorem tracked_step (orderly : s.Orderly s.running) (stepped : s.step = some t) :
    (∀ id ∈ s.tracked, id ∈ t.tracked ∨ s.schedule.outcome? id ≠ none) ∧
      ∀ id ∈ t.tracked, id ∈ s.tracked ∨ t.Launched id := by
  rcases step_cases stepped with ⟨task, values, turn, rfl⟩ | ⟨task, frame, rest, values, turn, rfl⟩ |
    ⟨job, queue, turn, next, rfl⟩
  · exact ⟨fun _ member => Or.inl member, fun _ member => Or.inl member⟩
  · have taken := Grows.takeStep s frame values orderly.tracked
    rw [running, turn] at orderly
    rw [tracked_move]
    refine ⟨fun id member => Or.inl (taken.extends.tracked member), ?_⟩
    intro id member
    exact (taken.extends.launched id member).imp_right fun launched => launched.move (orderly.grows taken) rest _
  · rw [running, turn] at orderly
    exact tracked_doJob orderly next

/-- What is tracked stays so until it is settled, and what comes to be tracked is about to
begin. -/
theorem tracked_happen (orderly : s.Orderly s.running) (e : Event) :
    (∀ id ∈ s.tracked, id ∈ (s.happen e).tracked ∨ s.schedule.outcome? id ≠ none) ∧
      ∀ id ∈ (s.happen e).tracked, id ∈ s.tracked ∨ (s.happen e).Launched id := by
  by_cases outside : e = .step
  · subst outside
    cases stepped : s.step with
    | none =>
      simp only [happen, stepped, Option.getD_none]
      exact ⟨fun _ member => Or.inl member, fun _ member => Or.inl member⟩
    | some t => simpa only [happen, stepped, Option.getD_some] using tracked_step orderly stepped
  rcases orderly.outside_cases outside with grows | ⟨id, outcome, asked, _, _, same⟩ | ⟨frames, _, same⟩
  · exact ⟨fun id member => Or.inl (grows.extends.tracked member), grows.extends.launched⟩
  · rw [same]
    exact ⟨fun _ member => Or.inl member, fun _ member => Or.inl member⟩
  · rw [same]
    exact ⟨fun _ member => Or.inl member, fun _ member => Or.inl member⟩

theorem tracked_run (orderly : s.Orderly s.running) (tracked : root ∈ s.tracked) (events : List Event) :
    root ∈ (s.run events).tracked ∨ (s.run events).schedule.outcome? root ≠ none := by
  have kept (t : Session) (e : Event) (orderly : t.Orderly t.running)
      (either : root ∈ t.tracked ∨ t.schedule.outcome? root ≠ none) :
      root ∈ (t.happen e).tracked ∨ (t.happen e).schedule.outcome? root ≠ none := by
    have still (settled : t.schedule.outcome? root ≠ none) : (t.happen e).schedule.outcome? root ≠ none := by
      rwa [(orderly.enlarges e).settled settled]
    rcases either with tracked | settled
    · exact ((tracked_happen orderly e).1 root tracked).imp_right still
    · exact Or.inr (still settled)
  exact (orderly.along events (Or.inl tracked) kept).2

/-- Whether a task that waits for behaviour has not gone on before that is settled. -/
def Drains (s : Session) (task : Nat) (rest : List Frame) (root : Nat) : Prop :=
  s.schedule.outcome? root ≠ none ∨ s.schedule.outcome? task ≠ none ∨
    root ∈ s.tracked ∧ ∃ supply, s.Stands task (.drain :: rest) supply

theorem drains_step (orderly : s.Orderly s.running) {rest : List Frame} {values : List Value}
    (turn : s.turn = some { task, frames := .drain :: rest, values }) (tracked : root ∈ s.tracked)
    (unsettled : s.schedule.outcome? root = none) : ∃ supply, (s.happen .step).Stands task (.drain :: rest) supply := by
  obtain ⟨alive, frames, held⟩ := (Stands.turn turn).alive orderly
  have pending : root ∈ s.tracked.filter s.schedule.isPending :=
    List.mem_filter.mpr ⟨tracked, by rw [Schedule.isPending, unsettled]; rfl⟩
  have nonempty := List.ne_nil_of_mem pending
  have inside : ∀ member ∈ s.tracked.filter s.schedule.isPending, member < s.schedule.promises.size :=
    fun member among => orderly.tracked member (List.mem_filter.mp among).1
  have joined := s.schedule.origin?_join nonempty true
  have waits : s.drain = ((s.scheduled (·.join (s.tracked.filter s.schedule.isPending) true)).1,
      .await s.schedule.promises.size [.drain]) := by
    unfold drain
    split
    next none => exact absurd none nonempty
    next => simp only [scheduled, Schedule.snd_join]
  rw [happen_step turn, takeStep, waits]
  refine ⟨_, stands_await ⟨frames, ?_⟩ ⟨?_, joined.2⟩ [.drain] rest⟩
  · exact ((Schedule.Extends.join s.schedule inside true).origin alive.1).trans held
  · exact Schedule.origin?_inside joined.1

theorem drains_happen (orderly : s.Orderly s.running) (e : Event) {rest : List Frame}
    (drains : s.Drains task rest root) : (s.happen e).Drains task rest root := by
  have enlarged := orderly.enlarges e
  have still {id : Nat} (settled : s.schedule.outcome? id ≠ none) : (s.happen e).schedule.outcome? id ≠ none := by
    rwa [enlarged.settled settled]
  rcases drains with settled | ended | ⟨tracked, supply, stands⟩
  · exact Or.inl (still settled)
  · exact Or.inr (Or.inl (still ended))
  rcases (tracked_happen orderly e).1 root tracked with later | settled
  · rcases stands_happen_on orderly e stands with ⟨after, stands, _⟩ | ⟨id, fault, _, _, failed⟩ | ⟨rfl, own⟩
    · exact Or.inr (Or.inr ⟨later, after, stands⟩)
    · exact Or.inr (Or.inl (by simp [failed]))
    · obtain ⟨⟨_, frames, values⟩, turn, rfl⟩ := Option.map_eq_some_iff.mp own
      obtain ⟨rfl, -⟩ := stands.of_turn orderly turn
      by_cases unsettled : s.schedule.outcome? root = none
      · exact Or.inr (Or.inr ⟨later, drains_step orderly turn tracked unsettled⟩)
      · exact Or.inl (still unsettled)
  · exact Or.inl (still settled)

theorem Drains.called (known : root ∈ s.tracked ∨ s.schedule.outcome? root ≠ none) {rest : List Frame}
    {values : List Value} (called : s.turn = some { task, frames := .drain :: rest, values }) : s.Drains task rest root := by
  rcases known with still | settled
  · exact Or.inr (Or.inr ⟨still, _, .turn called⟩)
  · exact Or.inl settled

theorem Drains.returned {rest : List Frame} (drains : s.Drains task rest root) (orderly : s.Orderly s.running)
    {values : List Value} (returned : s.turn = some { task, frames := rest, values }) : s.schedule.outcome? root ≠ none := by
  rcases drains with settled | ended | ⟨_, supply, stands⟩
  · exact settled
  · exact absurd ((Stands.turn returned).alive orderly).1.2 ended
  · obtain ⟨same, -⟩ := stands.of_turn orderly returned
    exact absurd same (by simp)

/-- When a drain returns, whatever was tracked before it was called is settled. -/
theorem drained (orderly : s.Orderly s.running) (tracked : root ∈ s.tracked) (before during : List Event)
    {rest : List Frame} {first last : List Value}
    (called : (s.run before).turn = some { task, frames := .drain :: rest, values := first })
    (returned : ((s.run before).run during).turn = some { task, frames := rest, values := last }) :
    ((s.run before).run during).schedule.outcome? root ≠ none := by
  have start := Drains.called (tracked_run orderly tracked before) called
  obtain ⟨later, drains⟩ := (orderly.run before).along during start fun _ e orderly drains => drains_happen orderly e drains
  exact drains.returned later returned

end Interaction.Session
