import Interaction.Proofs.Standing
import Mathlib.Data.List.Infix

/-! What a session watches: the behaviour that it tracks, the reports that are due once that has
ended, and the failures that have been reported. Most of what happens leaves all of these alone,
and whatever is queued is queued at the end. -/

namespace Interaction

/-- Whether a record is the report on behaviour that has failed. It is the only error that a machine
reports. -/
def Record.isFailure (r : Record) : Bool :=
  r.level = Level.error && r.logger = (Record.interpreter Level.error r.message).logger

def Occurrence.failure? : Occurrence → Option Record
  | .reported r => if r.isFailure then some r else none
  | _ => none

/-- The state that a report is to be about. -/
def Waiter.name? : Waiter → Option Value
  | .report name => some name
  | _ => none

namespace Schedule

variable {φ : Type}

/-- The reports that are still due: the names of the states, and the promises of their behaviour. -/
def reports (s : Schedule φ) : List (Value × Nat) :=
  s.notices.filterMap fun notice => notice.1.name?.map (·, notice.2)

theorem mem_reports {s : Schedule φ} {name : Value} {id : Nat} :
    (name, id) ∈ s.reports ↔ (.report name, id) ∈ s.notices := by
  simp only [reports, List.mem_filterMap, Option.map_eq_some_iff]
  constructor
  · rintro ⟨⟨waiter, other⟩, noticed, name, named, same⟩
    cases same
    cases waiter <;> cases named
    exact noticed
  · intro noticed
    exact ⟨_, noticed, name, rfl, rfl⟩

theorem reports_perm {s t : Schedule φ} (notices : t.notices.Perm s.notices) : t.reports.Perm s.reports :=
  notices.filterMap _

theorem reports_add (s : Schedule φ) (p : Promise φ) (alone : p.waiters = []) : (s.add p).1.reports = s.reports := by
  rw [reports, notices_add s p alone, reports]

theorem reports_spawn (s : Schedule φ) (frames : List φ) : (s.spawn frames).1.reports = s.reports := by
  have noticed : (s.spawn frames).1.notices = (s.add { origin := .task frames }).1.notices :=
    notices_run (s.add { origin := .task frames }).1 _
  rw [reports, noticed]
  exact reports_add s _ rfl

theorem reports_watch_other (s : Schedule φ) (id : Nat) {waiter : Waiter} (other : waiter.name? = none) :
    (s.watch id waiter).reports.Perm s.reports := by
  by_cases inside : id < s.promises.size
  · refine ((notices_watch s inside waiter).filterMap _).trans ?_
    rw [List.filterMap_cons]
    simp only [other, Option.map_none]
    exact .refl _
  · rw [watch_outside inside]

theorem reports_watch (s : Schedule φ) {id : Nat} (inside : id < s.promises.size) (name : Value) :
    (s.watch id (.report name)).reports.Perm ((name, id) :: s.reports) :=
  (notices_watch s inside (.report name)).filterMap _

theorem reports_join (s : Schedule φ) {members : List Nat} (inside : ∀ member ∈ members, member < s.promises.size)
    (patient : Bool) : (s.join members patient).1.reports.Perm s.reports := by
  by_cases empty : members = []
  · subst empty
    exact .of_eq (reports_add s _ rfl)
  · rw [join_members s empty]
    have added := reports_add s { origin := .join members members.length patient } rfl
    refine ((notices_watchAll _ ?_ _).filterMap _).trans ?_
    · intro member isMember
      rw [size_add]
      exact Nat.lt_succ_of_lt (inside member isMember)
    · rw [List.filterMap_append, List.filterMap_map]
      have none : (members.filterMap fun member => (Waiter.name? (.member s.promises.size)).map fun name => (name, member)) = [] := by
        simp [Waiter.name?]
      exact .of_eq ((congrArg (· ++ _) none).trans added)

/-- Taking a job from the queue makes the report that it is for, if it is for one. -/
theorem reports_next {s : Schedule φ} {job : Job} {queue : List Job} (next : s.queue = job :: queue) :
    s.reports = (job.notice?.bind fun notice => notice.1.name?.map (·, notice.2)).toList ++
      ({ s with queue } : Schedule φ).reports := by
  rw [reports, notices_next next, List.filterMap_append, reports]
  congr 1
  cases job.notice? with
  | none => rfl
  | some notice =>
    simp only [Option.toList_some, Option.bind_some, List.filterMap_cons, List.filterMap_nil]
    cases notice.1.name? <;> rfl

theorem queue_settle (s : Schedule φ) (id : Nat) (outcome : Outcome) : s.queue <+: (s.settle id outcome).queue := by
  by_cases unsettled : s.Open id
  · rw [settle_open unsettled]
    exact List.prefix_append _ _
  · rw [settle_closed unsettled]

theorem queue_watch (s : Schedule φ) (id : Nat) (waiter : Waiter) : s.queue <+: (s.watch id waiter).queue := by
  unfold watch
  split
  · exact List.prefix_refl _
  · exact List.prefix_append _ _

theorem queue_watchAll (s : Schedule φ) (ids : List Nat) (waiter : Waiter) : s.queue <+: (s.watchAll ids waiter).queue := by
  induction ids generalizing s with
  | nil => exact List.prefix_refl _
  | cons id ids ih => exact (s.queue_watch id waiter).trans (ih _)

theorem queue_join (s : Schedule φ) (members : List Nat) (patient : Bool) : s.queue <+: (s.join members patient).1.queue := by
  by_cases empty : members = []
  · subst empty
    exact List.prefix_refl _
  · rw [join_members s empty]
    exact queue_watchAll (s.add { origin := .join members members.length patient }).1 members _

theorem queue_report (s : Schedule φ) (join member : Nat) : s.queue <+: (s.report join member).queue := by
  rcases report_cases s join member with ⟨_, same⟩ | ⟨members, left, patient, _, same | ⟨_, _, _, same⟩ | ⟨_, same⟩⟩ <;> rw [same]
  · exact List.prefix_refl _
  · exact queue_settle (s.countOff join members left patient) join _
  · exact queue_settle (s.countOff join members left patient) join _

end Schedule

namespace Session

def reports (s : Session) : List (Value × Nat) :=
  s.schedule.reports

/-- The failures that have been reported, the latest first. -/
def failures (s : Session) : List Record :=
  s.trace.filterMap Occurrence.failure?

/-- Whether one session watches what another one does. -/
structure SameWatch (s t : Session) : Prop where
  tracked : t.tracked = s.tracked
  reports : t.reports.Perm s.reports
  failures : t.failures = s.failures

variable {s t u : Session}

namespace SameWatch

theorem same (schedule : t.schedule = s.schedule) (tracked : t.tracked = s.tracked) (trace : t.trace = s.trace) :
    s.SameWatch t :=
  ⟨tracked, .of_eq (congrArg Schedule.reports schedule), congrArg (List.filterMap _) trace⟩

theorem refl (s : Session) : s.SameWatch s :=
  .same rfl rfl rfl

theorem trans (first : s.SameWatch t) (last : t.SameWatch u) : s.SameWatch u :=
  ⟨last.tracked.trans first.tracked, last.reports.trans first.reports, last.failures.trans first.failures⟩

theorem note (s : Session) {o : Occurrence} (other : o.failure? = none) : s.SameWatch (s.note o) :=
  ⟨rfl, .refl _, List.filterMap_cons_none other⟩

theorem log (s : Session) {r : Record} (other : r.isFailure = false) : s.SameWatch (s.log r) :=
  .note s (by simp [Occurrence.failure?, other])

theorem logAll (s : Session) {rs : List Record} (others : ∀ r ∈ rs, r.isFailure = false) : s.SameWatch (s.logAll rs) := by
  induction rs generalizing s with
  | nil => exact .refl s
  | cons r rs ih =>
    have first := SameWatch.log s (others r (List.mem_cons_self ..))
    exact first.trans (ih _ fun other member => others other (List.mem_cons_of_mem r member))

theorem scheduled {schedule : Schedule Frame} (reports : schedule.reports.Perm s.schedule.reports) :
    s.SameWatch { s with schedule } :=
  ⟨rfl, reports, rfl⟩

theorem spawn (s : Session) (frames : List Frame) : s.SameWatch (s.spawn frames).1 :=
  .scheduled (.of_eq (s.schedule.reports_spawn frames))

theorem added (s : Session) (p : Promise Frame) (alone : p.waiters = []) : s.SameWatch { s with schedule := (s.schedule.add p).1 } :=
  .scheduled (.of_eq (s.schedule.reports_add p alone))

theorem settled (s : Session) (outcome : Outcome) : s.SameWatch (s.settled outcome).1 :=
  .added s _ rfl

theorem defer (s : Session) : s.SameWatch s.defer.1 :=
  ⟨rfl, (SameWatch.added s { origin := .outside } rfl).reports, rfl⟩

theorem ask (s : Session) : s.SameWatch s.ask.1 :=
  ⟨rfl, (SameWatch.added s { origin := .outside } rfl).reports, rfl⟩

theorem join (s : Session) {members : List Nat} (inside : ∀ member ∈ members, member < s.schedule.promises.size)
    (patient : Bool) : s.SameWatch (s.scheduled (·.join members patient)).1 :=
  .scheduled (s.schedule.reports_join inside patient)

theorem settle {id : Nat} {outcome : Outcome} (schedule : t.schedule = s.schedule.settle id outcome)
    (tracked : t.tracked = s.tracked) (trace : t.trace = s.trace) : s.SameWatch t := by
  refine ⟨tracked, ?_, congrArg (List.filterMap _) trace⟩
  rw [Session.reports, schedule]
  exact Schedule.reports_perm (s.schedule.notices_settle id outcome)

theorem resume (s : Session) (task : Nat) (frames : List Frame) (outcome : Outcome) : s.SameWatch (s.resume task frames outcome) := by
  cases outcome with
  | ok values => exact .same rfl rfl rfl
  | error fault => exact .settle rfl rfl rfl

theorem move (s : Session) (task : Nat) (rest : List Frame) (move : Move) : s.SameWatch (s.move task rest move) := by
  have suspended (frames : List Frame) : (s.schedule.suspend task frames).reports = s.schedule.reports := by
    rw [Schedule.reports, Schedule.notices_suspend, Schedule.reports]
  cases move with
  | go frames values => exact .same rfl rfl rfl
  | fail fault => exact .settle rfl rfl rfl
  | yield frames =>
    have queued := (s.schedule.suspend task (frames ++ rest)).notices_run task
    exact ⟨rfl, .of_eq ((congrArg (List.filterMap _) queued).trans (suspended _)), rfl⟩
  | await promise frames =>
    simp only [Session.move]
    split
    · exact .resume s task _ _
    · exact ⟨rfl, (Schedule.reports_watch_other _ promise rfl).trans (.of_eq (suspended _)), rfl⟩

end SameWatch

/-- The report that a session makes next, by the name of the state and the promise. -/
def tells? (s : Session) : Event → Option (Value × Nat)
  | .step =>
    match s.turn, s.schedule.queue with
    | none, .tell (.report name) id :: _ => some (name, id)
    | _, _ => none
  | _ => none

theorem SameWatch.doJob (turn : s.turn = none) {job : Job} {queue : List Job} (next : s.schedule.queue = job :: queue)
    (silent : s.tells? .step = none) : s.SameWatch ((s.popped queue).doJob job) := by
  have reports := Schedule.reports_next next
  cases job with
  | run task => exact ⟨rfl, .of_eq reports.symm, rfl⟩
  | tell waiter id =>
    cases waiter with
    | resume task =>
      have popped : s.SameWatch (s.popped queue) := ⟨rfl, .of_eq reports.symm, rfl⟩
      exact popped.trans (.resume ..)
    | member join =>
      have told := Schedule.reports_perm (Schedule.notices_report (s.popped queue).schedule join id)
      exact ⟨rfl, told.trans (.of_eq reports.symm), rfl⟩
    | report name => simp [tells?, turn, next] at silent

theorem Grows.queue (grows : s.Grows t) : s.schedule.queue <+: t.schedule.queue := by
  induction grows with
  | aside schedule => rw [schedule]
  | spawn s frames => exact List.prefix_append _ _
  | settled s outcome => exact List.prefix_refl _
  | defer s => exact List.prefix_refl _
  | ask s => exact List.prefix_refl _
  | join s inside patient => exact s.schedule.queue_join _ patient
  | track s launched name => exact s.schedule.queue_watch _ _
  | trans _ _ first last => exact first.trans last

theorem queue_resume (s : Session) (task : Nat) (frames : List Frame) (outcome : Outcome) :
    s.schedule.queue <+: (s.resume task frames outcome).schedule.queue := by
  cases outcome with
  | ok values => exact List.prefix_refl _
  | error fault => exact s.schedule.queue_settle task _

theorem queue_move (s : Session) (task : Nat) (rest : List Frame) (move : Move) :
    s.schedule.queue <+: (s.move task rest move).schedule.queue := by
  cases move with
  | go frames values => exact List.prefix_refl _
  | fail fault => exact s.schedule.queue_settle task _
  | yield frames => exact List.prefix_append _ _
  | await promise frames =>
    simp only [Session.move]
    split
    · exact s.queue_resume task _ _
    · exact (s.schedule.suspend task (frames ++ rest)).queue_watch promise _

theorem queue_doJob (s : Session) (job : Job) : s.schedule.queue <+: (s.doJob job).schedule.queue := by
  cases job with
  | run task => exact List.prefix_refl _
  | tell waiter id =>
    cases waiter with
    | resume task => exact s.queue_resume task _ _
    | member join => exact s.schedule.queue_report join id
    | report name => rw [doJob, schedule_reportBehavior]

theorem queue_happen (orderly : s.Orderly s.running) (e : Event) : s.schedule.queue <+: (s.happen e).schedule.queue ∨
    e = .step ∧ s.turn = none ∧ ∃ job queue, s.schedule.queue = job :: queue ∧ queue <+: (s.happen e).schedule.queue := by
  by_cases outside : e = .step
  · subst outside
    cases stepped : s.step with
    | none =>
      rw [happen, stepped]
      exact Or.inl (List.prefix_refl _)
    | some t =>
      rw [happen, stepped, Option.getD_some]
      rcases step_cases stepped with ⟨task, values, turn, rfl⟩ | ⟨task, frame, rest, values, turn, rfl⟩ |
        ⟨job, queue, turn, next, rfl⟩
      · exact Or.inl (s.schedule.queue_settle task _)
      · have taken := (Grows.takeStep s frame values orderly.tracked).queue
        exact Or.inl (taken.trans (queue_move _ task rest _))
      · exact Or.inr ⟨rfl, turn, job, queue, next, (s.popped queue).queue_doJob job⟩
  · left
    rcases orderly.outside_cases outside with grows | ⟨id, outcome, asked, _, _, same⟩ | ⟨frames, _, same⟩
    · exact grows.queue
    · rw [same]
      exact s.schedule.queue_settle id outcome
    · rw [same]
      exact List.prefix_refl _

end Session

end Interaction
