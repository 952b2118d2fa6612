import Interaction.Proofs.Standing

/-! Who settles a promise: the end or a failing step of its own task, a failure that the task is
told of, the members of a join, or someone outside. -/

namespace Interaction.Session

variable {s t : Session} {id : Nat} {outcome : Outcome}

/-- What settles a promise with an outcome. -/
inductive Settles (s : Session) (e : Event) (id : Nat) : Outcome → Prop where
  | ended {values : List Value} (turn : s.turn = some { task := id, frames := [], values }) : Settles s e id (.ok values)
  | failed {frame : Frame} {rest : List Frame} {values : List Value} {fault : Fault} (isStep : e = .step)
      (turn : s.turn = some { task := id, frames := frame :: rest, values })
      (move : (s.takeStep frame values).2 = .fail fault ∨ ∃ promise next,
        (s.takeStep frame values).2 = .await promise next ∧
          (s.takeStep frame values).1.schedule.outcome? promise = some (.error fault)) : Settles s e id (.error fault)
  | told {frames : List Frame} {promise : Nat} {fault : Fault} (stands : s.Stands id frames (.promise promise))
      (settled : s.schedule.outcome? promise = some (.error fault)) : Settles s e id (.error fault)
  | joined {members : List Nat} {values : List Value} (join : s.schedule.members? id = some members)
      (whole : s.schedule.Whole members values) : Settles s e id (.ok values)
  | broken {members : List Nat} {member : Nat} {fault : Fault} (join : s.schedule.role? id = some (.join members false))
      (among : member ∈ members) (settled : s.schedule.outcome? member = some (.error fault)) : Settles s e id (.error fault)
  | outside {outcome : Outcome} (origin : s.schedule.origin? id = some .outside) : Settles s e id outcome

theorem settles_own {s : Schedule Frame} {own : Nat} {given : Outcome} (unsettled : s.outcome? id = none)
    (settled : (s.settle own given).outcome? id = some outcome) : own = id ∧ outcome = given := by
  rcases Schedule.outcome?_settle s own given id with same | ⟨same, _, ended⟩
  · cases unsettled.symm.trans (same.symm.trans settled)
  · exact ⟨same, Option.some.inj (settled.symm.trans ended)⟩

theorem settles_resume {own : Nat} {frames : List Frame} {given : Outcome} (unsettled : s.schedule.outcome? id = none)
    (settled : (s.resume own frames given).schedule.outcome? id = some outcome) :
    own = id ∧ ∃ fault, given = .error fault ∧ outcome = .error fault := by
  cases given with
  | ok values => cases unsettled.symm.trans settled
  | error fault =>
    obtain ⟨rfl, rfl⟩ := settles_own unsettled settled
    exact ⟨rfl, fault, rfl, rfl⟩

theorem settles_move {own : Nat} {rest : List Frame} {move : Move} (unsettled : s.schedule.outcome? id = none)
    (settled : (s.move own rest move).schedule.outcome? id = some outcome) :
    own = id ∧ ∃ fault, outcome = .error fault ∧ (move = .fail fault ∨ ∃ promise next, move = .await promise next ∧
      s.schedule.outcome? promise = some (.error fault)) := by
  cases move with
  | go frames values => cases unsettled.symm.trans settled
  | fail fault =>
    obtain ⟨rfl, rfl⟩ := settles_own unsettled settled
    exact ⟨rfl, fault, rfl, Or.inl rfl⟩
  | yield frames =>
    have same := (Schedule.outcome?_suspend s.schedule own (frames ++ rest) id).symm.trans settled
    cases unsettled.symm.trans same
  | await promise frames =>
    simp only [move] at settled
    split at settled
    next given ended =>
      obtain ⟨rfl, fault, rfl, rfl⟩ := settles_resume unsettled settled
      exact ⟨rfl, fault, rfl, Or.inr ⟨promise, frames, rfl, ended⟩⟩
    · rw [Schedule.outcome?_watch, Schedule.outcome?_suspend] at settled
      cases unsettled.symm.trans settled

/-- Being told settles the join if any: with the failure of the member that it is told of, or
after its last member with what all of them hand on. -/
theorem settles_report {s : Schedule Frame} {join member : Nat} (unsettled : s.outcome? id = none)
    (settled : (s.report join member).outcome? id = some outcome) : join = id ∧
      ((∃ members patient, s.origin? join = some (.join members 1 patient) ∧
        outcome = .ok ((s.countOff join members 1 patient).gathered members)) ∨
      ∃ fault members, outcome = .error fault ∧ s.role? join = some (.join members false) ∧
        s.outcome? member = some (.error fault)) := by
  rcases Schedule.report_cases s join member with ⟨_, same⟩ | ⟨members, left, patient, held, same⟩
  · rw [same] at settled
    cases unsettled.symm.trans settled
  have counted : (s.countOff join members left patient).outcome? id = none :=
    (Schedule.outcome?_countOff ..).trans unsettled
  rcases same with same | ⟨fault, strict, failed, same⟩ | ⟨rfl, same⟩ <;> rw [same] at settled
  · cases counted.symm.trans settled
  · obtain ⟨own, rfl⟩ := settles_own counted settled
    exact ⟨own, Or.inr ⟨fault, members, rfl, strict ▸ Schedule.role?_origin held, failed⟩⟩
  · obtain ⟨own, rfl⟩ := settles_own counted settled
    exact ⟨own, Or.inl ⟨members, patient, held, rfl⟩⟩

theorem whole_last {s : Schedule Frame} (orderly : s.Orderly none) {join member : Nat}
    {queue : List Job} (next : s.queue = .tell (.member join) member :: queue) (unsettled : s.outcome? join = none)
    {members : List Nat} {patient : Bool} (held : s.origin? join = some (.join members 1 patient)) :
    s.Whole members ((({ s with queue } : Schedule Frame).countOff join members 1 patient).gathered members) := by
  have counted := orderly.count_off next held
  have own : (({ s with queue } : Schedule Frame).countOff join members 1 patient).origin? join =
      some (.join members 0 patient) := (Schedule.origin?_countOff held join).trans (if_pos rfl)
  have outcomes (id : Nat) : s.outcome? id = (({ s with queue } : Schedule Frame).countOff join members 1 patient).outcome? id :=
    (Schedule.outcome?_countOff ..).symm
  have open_ : (({ s with queue } : Schedule Frame).countOff join members 1 patient).Open join :=
    ⟨Schedule.origin?_inside own, (outcomes join).symm.trans unsettled⟩
  exact Schedule.Whole.later ⟨rfl, counted.all_settled own open_⟩ fun id _ => outcomes id

theorem settles_doJob (orderly : s.Orderly none) {job : Job} {queue : List Job} (next : s.schedule.queue = job :: queue)
    (unsettled : s.schedule.outcome? id = none)
    (settled : ((s.popped queue).doJob job).schedule.outcome? id = some outcome) (e : Event) : s.Settles e id outcome := by
  have first : job ∈ s.schedule.queue := next ▸ List.mem_cons_self ..
  cases job with
  | run task => cases unsettled.symm.trans settled
  | tell waiter told =>
    have noticed : (waiter, told) ∈ s.schedule.notices := Schedule.mem_notices.mpr (Or.inl first)
    obtain ⟨given, ended⟩ := Option.ne_none_iff_exists'.mp (orderly.schedule.told _ _ first)
    cases waiter with
    | resume task =>
      obtain ⟨rfl, fault, same, rfl⟩ := settles_resume (s := s.popped queue) unsettled settled
      have known : (s.popped queue).schedule.outcome? told = some given := ended
      rw [known] at same
      obtain ⟨_, frames, held⟩ := orderly.schedule.alive task (Schedule.mem_wakes.mpr (Or.inr ⟨told, noticed⟩))
      exact .told (.waiting noticed held) (ended.trans (congrArg some same))
    | member join =>
      obtain ⟨members, left, patient, held, among⟩ := orderly.schedule.joined join told noticed
      have isJoin := Schedule.members?_eq_some.mpr ⟨left, patient, held⟩
      obtain ⟨rfl, ⟨others, lenient, again, rfl⟩ | ⟨fault, others, rfl, strict, failed⟩⟩ :=
        settles_report (s := (s.popped queue).schedule) unsettled settled
      · cases held.symm.trans again
        exact .joined isJoin (whole_last orderly.schedule next unsettled held)
      · cases strict.symm.trans (Schedule.role?_origin held)
        exact .broken strict among failed
    | report name =>
      rw [doJob, schedule_reportBehavior] at settled
      cases unsettled.symm.trans settled

theorem settles_happen (orderly : s.Orderly s.running) (e : Event) (inside : id < s.schedule.promises.size)
    (unsettled : s.schedule.outcome? id = none) (settled : (s.happen e).schedule.outcome? id = some outcome) :
    s.Settles e id outcome := by
  by_cases outside : e = .step
  · subst outside
    cases stepped : s.step with
    | none =>
      rw [happen, stepped] at settled
      cases unsettled.symm.trans settled
    | some t =>
      simp only [happen, stepped, Option.getD_some] at settled
      rcases step_cases stepped with ⟨task, values, turn, rfl⟩ | ⟨task, frame, rest, values, turn, rfl⟩ |
        ⟨job, queue, turn, next, rfl⟩
      · obtain ⟨rfl, rfl⟩ := settles_own unsettled settled
        exact .ended turn
      · have extended := (Grows.takeStep s frame values orderly.tracked).extends
        obtain ⟨rfl, fault, rfl, move⟩ := settles_move ((extended.schedule.outcome inside).trans unsettled) settled
        exact .failed rfl turn move
      · rw [running, turn] at orderly
        exact settles_doJob orderly next unsettled settled .step
  rcases orderly.outside_cases outside with grows | ⟨other, given, asked, origin, _, same⟩ | ⟨frames, _, same⟩
  · cases unsettled.symm.trans ((grows.extends.schedule.outcome inside).symm.trans settled)
  · rw [same] at settled
    obtain ⟨rfl, -⟩ := settles_own unsettled settled
    exact .outside origin
  · have added := Schedule.Extends.add s.schedule { origin := .task [] } rfl
    rw [same] at settled
    cases unsettled.symm.trans ((added.outcome inside).symm.trans settled)

theorem settles_step (orderly : s.Orderly s.running) {own : Nat} {frame : Frame} {rest : List Frame} {values : List Value}
    (turn : s.turn = some { task := own, frames := frame :: rest, values })
    (settled : (s.happen .step).schedule.outcome? own = some outcome) :
    ∃ fault, outcome = .error fault ∧ ((s.takeStep frame values).2 = .fail fault ∨ ∃ promise next,
      (s.takeStep frame values).2 = .await promise next ∧
        (s.takeStep frame values).1.schedule.outcome? promise = some (.error fault)) := by
  have alive := ((Stands.turn turn).alive orderly).1
  have extended := (Grows.takeStep s frame values orderly.tracked).extends
  rw [happen_step turn] at settled
  exact (settles_move ((extended.schedule.outcome alive.1).trans alive.2) settled).2

theorem unsettled_step {own : Nat} {frame : Frame} {rest : List Frame} {values : List Value}
    (turn : s.turn = some { task := own, frames := frame :: rest, values }) (other : id ≠ own)
    (unsettled : (s.takeStep frame values).1.schedule.outcome? id = none) : (s.happen .step).schedule.outcome? id = none := by
  cases ended : (s.happen .step).schedule.outcome? id with
  | none => rfl
  | some outcome =>
    rw [happen_step turn] at ended
    exact absurd (settles_move unsettled ended).1.symm other

end Interaction.Session
