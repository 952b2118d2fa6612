import Interaction.Proofs.Notices
import Mathlib.Data.List.Pairwise

/-! A task is woken once at most, and only while it is open; so the task whose turn it is
waits for nothing. A join counts the members that it is still to be told of, and those
that are not settled are among them. -/

namespace Interaction

/-- Whether a notice is for a join. -/
def Waiter.isFor (join : Nat) : Waiter → Bool
  | .member other => other = join
  | _ => false

namespace Schedule

variable {φ : Type}

/-- Whether all members are settled and hand on the values. -/
def Whole (s : Schedule φ) (members : List Nat) (values : List Value) : Prop :=
  values = s.gathered members ∧ ∀ member ∈ members, s.outcome? member ≠ none

theorem Whole.later {s t : Schedule φ} {members : List Nat} {values : List Value} (whole : s.Whole members values)
    (kept : ∀ id, s.outcome? id ≠ none → t.outcome? id = s.outcome? id) : t.Whole members values := by
  refine ⟨?_, fun member isMember => kept member (whole.2 member isMember) ▸ whole.2 member isMember⟩
  rw [whole.1, gathered, gathered, List.flatMap_congr]
  intro member isMember
  rw [kept member (whole.2 member isMember)]

/-- What is always true of a schedule. `running` is the task whose turn it is. -/
structure Orderly (s : Schedule φ) (running : Option Nat) : Prop where
  once : (running.toList ++ s.wakes).Nodup
  alive : ∀ task ∈ running.toList ++ s.wakes, s.Open task ∧ ∃ frames, s.origin? task = some (.task frames)
  told : ∀ waiter id, .tell waiter id ∈ s.queue → s.outcome? id ≠ none
  waited : ∀ waiter id, waiter ∈ s.waiters id → s.outcome? id = none
  joined : ∀ join id, (.member join, id) ∈ s.notices →
    ∃ members left patient, s.origin? join = some (.join members left patient) ∧ id ∈ members
  counted : ∀ join members left patient, s.origin? join = some (.join members left patient) → s.Open join →
    s.notices.countP (·.1.isFor join) = left ∧
      ∀ member ∈ members, member < s.promises.size ∧ (s.Open member → (.member join, member) ∈ s.notices)
  whole : ∀ join members left patient, s.origin? join = some (.join members left patient) →
    ∀ values, s.outcome? join = some (.ok values) → s.Whole members values

theorem Orderly.empty : Orderly ({} : Schedule φ) none where
  once := by simp [wakes, notices, waiting]
  alive := by simp [wakes, notices, waiting]
  told := by simp
  waited := by simp [waiters]
  joined := by simp [notices, waiting]
  counted := by simp [origin?]
  whole := by simp [origin?]

theorem wakes_perm {s t : Schedule φ} (runs : t.queue.filterMap Job.run? = s.queue.filterMap Job.run?)
    (noticed : t.notices.Perm s.notices) : t.wakes.Perm s.wakes := by
  rw [wakes, wakes, runs]
  exact List.Perm.append_left _ (noticed.filterMap _)

namespace Orderly

variable {s : Schedule φ} {running : Option Nat}

theorem running_not_woken {task : Nat} (orderly : s.Orderly (some task)) : task ∉ s.wakes :=
  (List.nodup_cons.mp orderly.once).1

theorem queued_not_noticed (orderly : s.Orderly running) {task id : Nat} (queued : .run task ∈ s.queue)
    (noticed : (.resume task, id) ∈ s.notices) : False := by
  have once := (List.nodup_append.mp (List.nodup_append.mp orderly.once).2.1).2.2
  exact once task (List.mem_filterMap.mpr ⟨_, queued, rfl⟩) task (List.mem_filterMap.mpr ⟨_, noticed, rfl⟩) rfl

theorem noticed_once (orderly : s.Orderly running) {task id other : Nat} (noticed : (.resume task, id) ∈ s.notices)
    (again : (.resume task, other) ∈ s.notices) : id = other := by
  have once := (List.nodup_append.mp (List.nodup_append.mp orderly.once).2.1).2.1
  apply Classical.byContradiction
  intro different
  have symmetric : Std.Symm fun first last : Waiter × Nat =>
      ∀ task, first.1.task? = some task → ∀ other, last.1.task? = some other → task ≠ other :=
    ⟨fun _ _ apart task first other last => (apart other last task first).symm⟩
  exact (List.pairwise_filterMap.mp once).forall noticed again (by simpa using different) task rfl task rfl rfl

theorem add (orderly : s.Orderly running) (p : Promise φ) (alone : p.waiters = [])
    (simple : ∀ members left patient, p.origin ≠ .join members left patient) : (s.add p).1.Orderly running := by
  have outcomes {id : Nat} (inside : id < s.promises.size) : (s.add p).1.outcome? id = s.outcome? id := by
    rw [outcome?_add, if_neg (Nat.ne_of_lt inside)]
  have origins {id : Nat} {origin : Origin φ} (held : (s.add p).1.origin? id = some origin) :
      id = s.promises.size ∧ p.origin = origin ∨ s.origin? id = some origin := by
    rw [origin?_add] at held
    split at held
    next same => exact Or.inl ⟨same, Option.some.inj held⟩
    next => exact Or.inr held
  have noticed : (s.add p).1.notices = s.notices := notices_add s p alone
  have woken : (s.add p).1.wakes = s.wakes := by rw [wakes, noticed]; rfl
  have later {id : Nat} (unsettled : (s.add p).1.Open id) (inside : id < s.promises.size) : s.Open id :=
    ⟨inside, outcomes inside ▸ unsettled.2⟩
  constructor
  case once =>
    rw [woken]
    exact orderly.once
  case alive =>
    rw [woken]
    intro task member
    obtain ⟨⟨inside, unsettled⟩, frames, held⟩ := orderly.alive task member
    refine ⟨⟨by rw [size_add]; omega, by rw [outcomes inside]; exact unsettled⟩, frames, ?_⟩
    rw [origin?_add, if_neg (Nat.ne_of_lt inside)]
    exact held
  case told =>
    intro waiter id queued
    have settled := orderly.told waiter id queued
    rw [outcomes (outcome?_inside settled)]
    exact settled
  case waited =>
    intro waiter id waits
    rw [waiters_add s p alone] at waits
    rw [outcomes (waiters_inside waits)]
    exact orderly.waited waiter id waits
  case joined =>
    rw [noticed]
    intro join id member
    obtain ⟨members, left, patient, held, among⟩ := orderly.joined join id member
    rw [origin?_add, if_neg (Nat.ne_of_lt (origin?_inside held))]
    exact ⟨members, left, patient, held, among⟩
  case counted =>
    intro join members left patient held unsettled
    rcases origins held with ⟨_, same⟩ | held
    · exact False.elim (simple _ _ _ same)
    · obtain ⟨count, inside⟩ := orderly.counted join members left patient held (later unsettled (origin?_inside held))
      rw [noticed, size_add]
      exact ⟨count, fun member isMember => ⟨Nat.lt_succ_of_lt (inside member isMember).1,
        fun still => (inside member isMember).2 (later still (inside member isMember).1)⟩⟩
  case whole =>
    intro join members left patient held values ended
    rcases origins held with ⟨_, same⟩ | held
    · exact False.elim (simple _ _ _ same)
    · rw [outcomes (origin?_inside held)] at ended
      exact (orderly.whole join members left patient held values ended).later fun id settled =>
        outcomes (outcome?_inside settled)

theorem isFor_simple {waiter : Waiter} (simple : ∀ join, waiter ≠ .member join) (join : Nat) :
    waiter.isFor join = false := by
  cases waiter with
  | member other => exact False.elim (simple other rfl)
  | resume task => rfl
  | report name => rfl

/-- What is kept when no promise changes, and those who have been told are no joins. -/
theorem rewake (orderly : s.Orderly running) {t : Schedule φ} {next : Option Nat} (promises : t.promises = s.promises)
    (told : List (Waiter × Nat)) (simple : ∀ notice ∈ told, ∀ join, notice.1 ≠ .member join)
    (noticed : s.notices.Perm (told ++ t.notices))
    (queued : ∀ waiter id, .tell waiter id ∈ t.queue → .tell waiter id ∈ s.queue)
    (once : (next.toList ++ t.wakes).Nodup)
    (alive : ∀ task ∈ next.toList ++ t.wakes, s.Open task ∧ ∃ frames, s.origin? task = some (.task frames)) :
    t.Orderly next := by
  have outcomes (id : Nat) : t.outcome? id = s.outcome? id := by rw [outcome?, promises]; rfl
  have origins (id : Nat) : t.origin? id = s.origin? id := by rw [origin?, promises]; rfl
  have waiters (id : Nat) : t.waiters id = s.waiters id := by rw [Schedule.waiters, promises]; rfl
  have opens (id : Nat) : t.Open id ↔ s.Open id := by rw [Open, Open, outcomes, promises]
  constructor
  case once => exact once
  case alive =>
    intro task member
    rw [opens, origins]
    exact alive task member
  case told =>
    intro waiter id member
    rw [outcomes]
    exact orderly.told waiter id (queued waiter id member)
  case waited =>
    intro waiter id waits
    rw [waiters] at waits
    rw [outcomes]
    exact orderly.waited waiter id waits
  case joined =>
    intro join id member
    rw [origins]
    exact orderly.joined join id (noticed.mem_iff.mpr (List.mem_append_right _ member))
  case counted =>
    intro join members left patient held unsettled
    rw [origins] at held
    rw [opens] at unsettled
    obtain ⟨count, inside⟩ := orderly.counted join members left patient held unsettled
    have none : told.countP (·.1.isFor join) = 0 :=
      List.countP_eq_zero.mpr fun notice gone => by simp [isFor_simple (simple notice gone)]
    constructor
    · rw [← count, noticed.countP_eq, List.countP_append, none, Nat.zero_add]
    · intro member isMember
      rw [promises, opens]
      refine ⟨(inside member isMember).1, ?_⟩
      intro pending
      have noted := noticed.mem_iff.mp ((inside member isMember).2 pending)
      exact (List.mem_append.mp noted).resolve_left fun gone => simple _ gone join rfl
  case whole =>
    intro join members left patient held values ended
    rw [origins] at held
    rw [outcomes] at ended
    exact (orderly.whole join members left patient held values ended).later fun id _ => outcomes id

theorem run (orderly : s.Orderly running) {task : Nat} {frames : List φ} (unsettled : s.Open task)
    (held : s.origin? task = some (.task frames)) (idle : task ∉ running.toList ++ s.wakes) :
    ({ s with queue := s.queue ++ [.run task] } : Schedule φ).Orderly running := by
  have woken : ({ s with queue := s.queue ++ [.run task] } : Schedule φ).wakes.Perm (task :: s.wakes) := by
    simp only [wakes, notices, List.filterMap_append, List.append_assoc]
    exact List.perm_middle
  have whole := (List.Perm.append_left running.toList woken).trans List.perm_middle
  refine orderly.rewake rfl [] (by simp) ?_ ?_ ?_ ?_
  · rw [notices_run]
    exact .refl _
  · intro waiter id queued
    simpa using queued
  · exact whole.nodup_iff.mpr (List.nodup_cons.mpr ⟨idle, orderly.once⟩)
  · intro other member
    rcases List.mem_cons.mp (whole.mem_iff.mp member) with rfl | old
    · exact ⟨unsettled, frames, held⟩
    · exact orderly.alive other old

private theorem add_task (orderly : s.Orderly running) (frames : List φ) :
    (s.add { origin := .task frames }).1.Open s.promises.size ∧
      (s.add { origin := .task frames }).1.origin? s.promises.size = some (.task frames) ∧
      s.promises.size ∉ running.toList ++ (s.add { origin := .task frames }).1.wakes := by
  refine ⟨⟨?_, ?_⟩, ?_, ?_⟩
  · rw [size_add]; exact Nat.lt_succ_self _
  · rw [outcome?_add, if_pos rfl]
  · rw [origin?_add, if_pos rfl]
  · intro member
    have old : s.promises.size ∈ running.toList ++ s.wakes := by
      rwa [wakes, notices_add s _ rfl] at member
    exact Nat.lt_irrefl _ (orderly.alive _ old).1.1

theorem spawn (orderly : s.Orderly running) (frames : List φ) : (s.spawn frames).1.Orderly running := by
  obtain ⟨unsettled, held, idle⟩ := orderly.add_task frames
  exact (orderly.add { origin := .task frames } rfl (by simp)).run unsettled held idle

theorem begin (orderly : s.Orderly none) (frames : List φ) :
    (s.add { origin := .task frames }).1.Orderly (some s.promises.size) := by
  obtain ⟨unsettled, held, idle⟩ := orderly.add_task frames
  have added := orderly.add { origin := .task frames } rfl (by simp)
  refine added.rewake rfl [] (by simp) (.refl _) (fun _ _ queued => queued) (List.nodup_cons.mpr ⟨idle, added.once⟩) ?_
  rintro task (_ | ⟨_, old⟩)
  · exact ⟨unsettled, frames, held⟩
  · exact added.alive task old

theorem wakes_watch (s : Schedule φ) {id : Nat} (inside : id < s.promises.size) (waiter : Waiter) :
    (s.watch id waiter).wakes.Perm (waiter.task?.toList ++ s.wakes) := by
  have noticed := (notices_watch s inside waiter).filterMap (·.1.task?)
  rw [wakes, wakes, runs_watch]
  apply (List.Perm.append_left _ noticed).trans
  cases task : waiter.task? with
  | none => simp [task]
  | some t =>
    simp only [List.filterMap_cons, task, Option.toList_some, List.singleton_append]
    exact List.perm_middle

private theorem watch_simple (orderly : s.Orderly running) {id : Nat} (inside : id < s.promises.size)
    {waiter : Waiter} (simple : ∀ join, waiter ≠ .member join) {next : Option Nat}
    (moved : (next.toList ++ (waiter.task?.toList ++ s.wakes)).Perm (running.toList ++ s.wakes)) :
    (s.watch id waiter).Orderly next := by
  have noticed := notices_watch s inside waiter
  have woken := (List.Perm.append_left next.toList (wakes_watch s inside waiter)).trans moved
  have opens (other : Nat) : (s.watch id waiter).Open other ↔ s.Open other := by
    rw [Open, Open, size_watch, outcome?_watch]
  constructor
  case once => exact woken.nodup_iff.mpr orderly.once
  case alive =>
    intro task member
    rw [opens, origin?_watch]
    exact orderly.alive task (woken.mem_iff.mp member)
  case told =>
    intro other told queued
    rw [outcome?_watch]
    rcases mem_queue_watch.mp queued with queued | ⟨settled, same⟩
    · exact orderly.told other told queued
    · cases same; exact settled
  case waited =>
    intro other told waits
    rw [outcome?_watch]
    rcases mem_waiters_watch.mp waits with waits | ⟨unsettled, rfl, _⟩
    · exact orderly.waited other told waits
    · exact unsettled.2
  case joined =>
    intro join told member
    rw [origin?_watch]
    rcases List.mem_cons.mp (noticed.mem_iff.mp member) with same | old
    · exact False.elim (simple join (congrArg Prod.fst same).symm)
    · exact orderly.joined join told old
  case counted =>
    intro join members left patient held unsettled
    rw [origin?_watch] at held
    obtain ⟨count, within⟩ := orderly.counted join members left patient held ((opens join).mp unsettled)
    have other := isFor_simple simple join
    constructor
    · rw [noticed.countP_eq, List.countP_cons_of_neg (by simp [other])]
      exact count
    · intro member isMember
      rw [size_watch, opens, noticed.mem_iff]
      exact ⟨(within member isMember).1, fun still => List.mem_cons_of_mem _ ((within member isMember).2 still)⟩
  case whole =>
    intro join members left patient held values ended
    rw [origin?_watch] at held
    rw [outcome?_watch] at ended
    exact (orderly.whole join members left patient held values ended).later fun other _ =>
      outcome?_watch s id waiter other

theorem watch (orderly : s.Orderly running) {id : Nat} (inside : id < s.promises.size) (name : Value) :
    (s.watch id (.report name)).Orderly running :=
  orderly.watch_simple inside (by simp) (.refl _)

theorem rest (orderly : s.Orderly running) : s.Orderly none :=
  orderly.rewake rfl [] (by simp) (.refl _) (fun _ _ queued => queued) (orderly.once.sublist (List.sublist_append_right ..))
    fun task member => orderly.alive task (List.mem_append_right _ member)

theorem await {task : Nat} (orderly : s.Orderly (some task)) (id : Nat) :
    (s.watch id (.resume task)).Orderly none := by
  by_cases inside : id < s.promises.size
  · exact orderly.watch_simple inside (by simp) (.refl _)
  · rw [watch_outside inside]
    exact orderly.rest

theorem suspend {task : Nat} (orderly : s.Orderly (some task)) (frames : List φ) :
    (s.suspend task frames).Orderly (some task) := by
  obtain ⟨_, old, own⟩ := orderly.alive task (by simp)
  have noticed := notices_suspend s task frames
  have woken : (s.suspend task frames).wakes = s.wakes := by rw [wakes, noticed]; rfl
  have opens (other : Nat) : (s.suspend task frames).Open other ↔ s.Open other := by
    rw [Open, Open, size_suspend, outcome?_suspend]
  have joins {join : Nat} {members : List Nat} {left : Nat} {patient : Bool}
      (held : (s.suspend task frames).origin? join = some (.join members left patient)) :
      s.origin? join = some (.join members left patient) := by
    rw [origin?_suspend] at held
    split at held
    next same => subst same; simp [own] at held
    next => exact held
  constructor
  case once =>
    rw [woken]
    exact orderly.once
  case alive =>
    rw [woken]
    intro other member
    obtain ⟨unsettled, others, held⟩ := orderly.alive other member
    rw [opens, origin?_suspend]
    split
    next same => subst same; exact ⟨unsettled, frames, by simp [own]⟩
    next => exact ⟨unsettled, others, held⟩
  case told =>
    intro waiter id queued
    rw [outcome?_suspend]
    exact orderly.told waiter id queued
  case waited =>
    intro waiter id waits
    rw [waiters_suspend] at waits
    rw [outcome?_suspend]
    exact orderly.waited waiter id waits
  case joined =>
    rw [noticed]
    intro join id member
    obtain ⟨members, left, patient, held, among⟩ := orderly.joined join id member
    rw [origin?_suspend, if_neg (by rintro rfl; simp [own] at held)]
    exact ⟨members, left, patient, held, among⟩
  case counted =>
    intro join members left patient held unsettled
    obtain ⟨count, inside⟩ := orderly.counted join members left patient (joins held) ((opens join).mp unsettled)
    rw [noticed, size_suspend]
    exact ⟨count, fun member isMember =>
      ⟨(inside member isMember).1, fun still => (inside member isMember).2 ((opens member).mp still)⟩⟩
  case whole =>
    intro join members left patient held values ended
    rw [outcome?_suspend] at ended
    exact (orderly.whole join members left patient (joins held) values ended).later fun other _ =>
      outcome?_suspend s task frames other

theorem yield {task : Nat} (orderly : s.Orderly (some task)) (frames : List φ) :
    (s.yield task frames).Orderly none := by
  have suspended := orderly.suspend frames
  obtain ⟨unsettled, kept, held⟩ := suspended.alive task (by simp)
  exact suspended.rest.run unsettled held suspended.running_not_woken

/-- A promise is settled that nothing else can settle. -/
theorem settle (orderly : s.Orderly running) {id : Nat} (outcome : Outcome) {next : Option Nat}
    (fewer : next = running ∨ next = none) (other : ∀ task ∈ next.toList ++ s.wakes, task ≠ id)
    (fair : ∀ members left patient, s.origin? id = some (.join members left patient) →
      ∀ values, outcome = .ok values → s.Whole members values) :
    (s.settle id outcome).Orderly next := by
  have noticed := notices_settle s id outcome
  have woken := List.Perm.append_left next.toList (wakes_perm (runs_settle s id outcome) noticed)
  have opens {task : Nat} (different : task ≠ id) : (s.settle id outcome).Open task ↔ s.Open task := by
    rw [Open, Open, size_settle]
    rcases outcome?_settle s id outcome task with same | ⟨same, _, _⟩
    · rw [same]
    · exact False.elim (different same.symm)
  have before {task : Nat} (unsettled : (s.settle id outcome).Open task) : s.Open task := by
    refine ⟨by simpa only [size_settle] using unsettled.1, ?_⟩
    rcases outcome?_settle s id outcome task with same | ⟨_, _, same⟩
    · exact same ▸ unsettled.2
    · rw [unsettled.2] at same; cases same
  -- Only the promise that is settled changes, so each part of the invariant asks whether it is about that one.
  constructor
  case once =>
    apply woken.nodup_iff.mpr
    rcases fewer with rfl | rfl
    · exact orderly.once
    · exact orderly.rest.once
  case alive =>
    intro task member
    have old := woken.mem_iff.mp member
    rw [opens (other task old), origin?_settle]
    rcases fewer with rfl | rfl
    · exact orderly.alive task old
    · exact orderly.rest.alive task old
  case told =>
    intro waiter told queued
    rcases outcome?_settle s id outcome told with same | ⟨_, _, same⟩
    · rw [same]
      rcases mem_queue_settle.mp queued with queued | ⟨unsettled, waiter', _, equal⟩
      · exact orderly.told waiter told queued
      · cases equal
        rw [outcome?_settle_self unsettled] at same
        rw [← same]
        simp
    · rw [same]; simp
  case waited =>
    intro waiter told waits
    by_cases same : id = told
    · subst same
      by_cases unsettled : s.Open id
      · rw [waiters_settle_self unsettled] at waits
        cases waits
      · rw [settle_closed unsettled] at waits ⊢
        exact orderly.waited waiter id waits
    · rw [waiters_settle_ne s outcome same] at waits
      rcases outcome?_settle s id outcome told with kept | ⟨equal, _, _⟩
      · rw [kept]; exact orderly.waited waiter told waits
      · exact False.elim (same equal)
  case joined =>
    intro join told member
    rw [origin?_settle]
    exact orderly.joined join told (noticed.mem_iff.mp member)
  case counted =>
    intro join members left patient held unsettled
    rw [origin?_settle] at held
    obtain ⟨count, inside⟩ := orderly.counted join members left patient held (before unsettled)
    refine ⟨(noticed.countP_eq _).trans count, ?_⟩
    intro member isMember
    rw [size_settle, noticed.mem_iff]
    exact ⟨(inside member isMember).1, fun still => (inside member isMember).2 (before still)⟩
  case whole =>
    intro join members left patient held values ended
    rw [origin?_settle] at held
    have whole : s.Whole members values := by
      rcases outcome?_settle s id outcome join with same | ⟨rfl, _, same⟩
      · exact orderly.whole join members left patient held values (same ▸ ended)
      · exact fair members left patient held values (Option.some.inj (same.symm.trans ended))
    exact whole.later fun other => outcome?_settle_kept s id outcome

theorem finish {task : Nat} (orderly : s.Orderly (some task)) (outcome : Outcome) :
    (s.settle task outcome).Orderly none := by
  obtain ⟨_, frames, own⟩ := orderly.alive task (by simp)
  refine orderly.settle outcome (Or.inr rfl) ?_ (by simp [own])
  rintro other member rfl
  exact orderly.running_not_woken member

theorem settle_outside (orderly : s.Orderly running) {id : Nat} (outcome : Outcome)
    (outside : s.origin? id = some .outside) : (s.settle id outcome).Orderly running := by
  refine orderly.settle outcome (Or.inl rfl) ?_ (by simp [outside])
  rintro task member rfl
  obtain ⟨_, frames, own⟩ := orderly.alive task member
  simp [own] at outside

end Orderly

/-- What a schedule is like once it has a join of these members, which is the last of its promises. -/
structure Joining (s t : Schedule φ) (members : List Nat) (patient : Bool) : Prop where
  size : t.promises.size = s.promises.size + 1
  outcome : ∀ id, t.outcome? id = if id = s.promises.size then none else s.outcome? id
  origin : ∀ id, t.origin? id =
    if id = s.promises.size then some (.join members members.length patient) else s.origin? id
  runs : t.queue.filterMap Job.run? = s.queue.filterMap Job.run?
  noticed : t.notices.Perm (members.map (Waiter.member s.promises.size, ·) ++ s.notices)
  told : ∀ waiter id, .tell waiter id ∈ t.queue → .tell waiter id ∈ s.queue ∨ s.outcome? id ≠ none
  waited : ∀ waiter id, waiter ∈ t.waiters id → waiter ∈ s.waiters id ∨ s.outcome? id = none

theorem joining (s : Schedule φ) {members : List Nat} (nonempty : members ≠ [])
    (inside : ∀ member ∈ members, member < s.promises.size) (patient : Bool) :
    s.Joining (s.join members patient).1 members patient := by
  rw [join_members s nonempty]
  let p : Promise φ := { origin := .join members members.length patient }
  change s.Joining ((s.add p).1.watchAll members (.member s.promises.size)) members patient
  have old {id : Nat} (isMember : id ∈ members) : (s.add p).1.outcome? id = s.outcome? id := by
    rw [outcome?_add, if_neg (Nat.ne_of_lt (inside id isMember))]
  constructor
  case size => rw [size_watchAll, size_add]
  case outcome =>
    intro id
    rw [outcome?_watchAll, outcome?_add]
  case origin =>
    intro id
    rw [origin?_watchAll, origin?_add]
  case runs =>
    rw [runs_watchAll]
    rfl
  case noticed =>
    rw [← notices_add s p rfl]
    exact notices_watchAll _ (fun member isMember => by rw [size_add]; exact Nat.lt_succ_of_lt (inside member isMember)) _
  case told =>
    intro waiter id queued
    rcases mem_queue_watchAll.mp queued with before | ⟨member, isMember, settled, same⟩
    · exact Or.inl before
    · cases same
      exact Or.inr (old isMember ▸ settled)
  case waited =>
    intro waiter id waits
    rcases mem_waiters_watchAll.mp waits with before | ⟨unsettled, isMember, _⟩
    · exact Or.inl (by rwa [waiters_add s p rfl] at before)
    · exact Or.inr (old isMember ▸ unsettled.2)

namespace Joining

variable {s t : Schedule φ} {running : Option Nat} {members : List Nat} {patient : Bool}

theorem wakes (joining : s.Joining t members patient) : t.wakes.Perm s.wakes := by
  rw [Schedule.wakes, Schedule.wakes, joining.runs]
  refine List.Perm.append_left _ ((joining.noticed.filterMap _).trans (.of_eq ?_))
  rw [List.filterMap_append, List.filterMap_map]
  simp [Function.comp_def, Waiter.task?]

theorem old_origin (joining : s.Joining t members patient) {id : Nat} (inside : id < s.promises.size) :
    t.origin? id = s.origin? id := by
  rw [joining.origin, if_neg (Nat.ne_of_lt inside)]

theorem old_open (joining : s.Joining t members patient) {id : Nat} (inside : id < s.promises.size) :
    t.Open id ↔ s.Open id := by
  rw [Open, Open, joining.outcome, if_neg (Nat.ne_of_lt inside), joining.size]
  exact ⟨fun unsettled => ⟨inside, unsettled.2⟩, fun unsettled => ⟨Nat.lt_succ_of_lt inside, unsettled.2⟩⟩

theorem kept (joining : s.Joining t members patient) {id : Nat} (settled : s.outcome? id ≠ none) :
    t.outcome? id = s.outcome? id := by
  rw [joining.outcome, if_neg (Nat.ne_of_lt (outcome?_inside settled))]

/-- The new join is told of each of its members, and the others of what they were told of before. -/
theorem count (joining : s.Joining t members patient) (orderly : s.Orderly running) (join : Nat) :
    t.notices.countP (·.1.isFor join) =
      if join = s.promises.size then members.length else s.notices.countP (·.1.isFor join) := by
  rw [joining.noticed.countP_eq, List.countP_append, List.countP_map]
  split
  next same =>
    subst same
    have alone : s.notices.countP (·.1.isFor s.promises.size) = 0 := by
      apply List.countP_eq_zero.mpr
      rintro ⟨waiter, id⟩ member isFor
      cases waiter with
      | member join =>
        cases of_decide_eq_true isFor
        obtain ⟨_, _, _, held, _⟩ := orderly.joined _ id member
        exact Nat.lt_irrefl _ (origin?_inside held)
      | resume task => cases isFor
      | report name => cases isFor
    rw [alone]
    simp [Function.comp_def, Waiter.isFor]
  next other => simp [Function.comp_def, Waiter.isFor, Ne.symm other]

theorem counted (joining : s.Joining t members patient) (orderly : s.Orderly running)
    (inside : ∀ member ∈ members, member < s.promises.size) (join : Nat) (others : List Nat) (left : Nat) (lenient : Bool)
    (held : t.origin? join = some (.join others left lenient)) (unsettled : t.Open join) :
    t.notices.countP (·.1.isFor join) = left ∧
      ∀ member ∈ others, member < t.promises.size ∧ (t.Open member → (.member join, member) ∈ t.notices) := by
  rw [joining.origin] at held
  rw [joining.count orderly, joining.size]
  split at held
  next same =>
    subst same
    cases held
    rw [if_pos rfl]
    refine ⟨rfl, fun member isMember => ⟨Nat.lt_succ_of_lt (inside member isMember), fun _ => ?_⟩⟩
    exact joining.noticed.mem_iff.mpr (List.mem_append_left _ (List.mem_map_of_mem isMember))
  next other =>
    have before := (joining.old_open (origin?_inside held)).mp unsettled
    obtain ⟨count, within⟩ := orderly.counted join others left lenient held before
    rw [if_neg other]
    refine ⟨count, fun member isMember => ⟨Nat.lt_succ_of_lt (within member isMember).1, fun still => ?_⟩⟩
    have noted := (within member isMember).2 ((joining.old_open (within member isMember).1).mp still)
    exact joining.noticed.mem_iff.mpr (List.mem_append_right _ noted)

theorem orderly (joining : s.Joining t members patient) (orderly : s.Orderly running)
    (inside : ∀ member ∈ members, member < s.promises.size) : t.Orderly running := by
  have woken := List.Perm.append_left running.toList joining.wakes
  constructor
  case once => exact woken.nodup_iff.mpr orderly.once
  case alive =>
    intro task member
    obtain ⟨unsettled, frames, held⟩ := orderly.alive task (woken.mem_iff.mp member)
    exact ⟨(joining.old_open unsettled.1).mpr unsettled, frames, (joining.old_origin unsettled.1).trans held⟩
  case told =>
    intro waiter id queued
    have settled : s.outcome? id ≠ none := (joining.told waiter id queued).elim (orderly.told waiter id) fun settled => settled
    rwa [joining.kept settled]
  case waited =>
    intro waiter id waits
    rw [joining.outcome, (joining.waited waiter id waits).elim (orderly.waited waiter id) fun unsettled => unsettled, ite_self]
  case joined =>
    intro join id member
    rw [joining.origin]
    rcases List.mem_append.mp (joining.noticed.mem_iff.mp member) with new | old
    · obtain ⟨_, isMember, same⟩ := List.mem_map.mp new
      cases same
      exact ⟨members, members.length, patient, if_pos rfl, isMember⟩
    · obtain ⟨others, left, lenient, held, among⟩ := orderly.joined join id old
      exact ⟨others, left, lenient, (if_neg (Nat.ne_of_lt (origin?_inside held))).trans held, among⟩
  case counted => exact joining.counted orderly inside
  case whole =>
    intro join others left lenient held values ended
    rw [joining.origin] at held
    rw [joining.outcome] at ended
    split at held
    next same =>
      rw [if_pos same] at ended
      cases ended
    next other =>
      rw [if_neg other] at ended
      exact (orderly.whole join others left lenient held values ended).later fun _ => joining.kept

end Joining

namespace Orderly

variable {s : Schedule φ} {running : Option Nat}

/-- Several promises are waited for together. -/
theorem join (orderly : s.Orderly running) {members : List Nat} (inside : ∀ member ∈ members, member < s.promises.size)
    (patient : Bool) : (s.join members patient).1.Orderly running := by
  by_cases empty : members = []
  · subst empty
    exact orderly.add { origin := .outside, outcome := some (.ok []) } rfl (by simp)
  · exact (s.joining empty inside patient).orderly orderly inside

theorem notices_pop {waiter : Waiter} {id : Nat} {queue : List Job} (next : s.queue = .tell waiter id :: queue) :
    s.notices = (waiter, id) :: ({ s with queue } : Schedule φ).notices :=
  notices_next next

theorem pop_run (orderly : s.Orderly none) {task : Nat} {queue : List Job} (next : s.queue = .run task :: queue) :
    ({ s with queue } : Schedule φ).Orderly (some task) := by
  have noticed : s.notices = ({ s with queue } : Schedule φ).notices := by rw [notices, next]; rfl
  have woken : s.wakes = task :: ({ s with queue } : Schedule φ).wakes := by rw [wakes, noticed, next]; rfl
  have once := orderly.once
  have alive := orderly.alive
  rw [woken] at once alive
  exact orderly.rewake rfl [] (by simp) (.of_eq noticed)
    (fun waiter id queued => next ▸ List.mem_cons_of_mem _ queued) once alive

theorem pop_resume (orderly : s.Orderly none) {task id : Nat} {queue : List Job}
    (next : s.queue = .tell (.resume task) id :: queue) : ({ s with queue } : Schedule φ).Orderly (some task) := by
  have noticed := notices_pop next
  have woken : s.wakes.Perm (task :: ({ s with queue } : Schedule φ).wakes) := by
    rw [wakes, noticed, next]
    exact List.perm_middle
  exact orderly.rewake rfl [(.resume task, id)] (by simp) (.of_eq noticed)
    (fun waiter id queued => next ▸ List.mem_cons_of_mem _ queued) (woken.nodup_iff.mp orderly.once)
    fun other member => orderly.alive other (woken.mem_iff.mpr member)

theorem pop_report (orderly : s.Orderly none) {name : Value} {id : Nat} {queue : List Job}
    (next : s.queue = .tell (.report name) id :: queue) : ({ s with queue } : Schedule φ).Orderly none := by
  have noticed := notices_pop next
  have woken : s.wakes = ({ s with queue } : Schedule φ).wakes := by rw [wakes, noticed, next]; rfl
  have once := orderly.once
  have alive := orderly.alive
  rw [woken] at once alive
  exact orderly.rewake rfl [(.report name, id)] (by simp) (.of_eq noticed)
    (fun waiter id queued => next ▸ List.mem_cons_of_mem _ queued) once alive

end Orderly

/-- What a schedule is like once a join has been told of one of its members, and counts one less. -/
structure Counting (s t : Schedule φ) (join id : Nat) (members : List Nat) (left : Nat) (patient : Bool) : Prop where
  own : s.origin? join = some (.join members left patient)
  settled : s.outcome? id ≠ none
  size : t.promises.size = s.promises.size
  outcome : ∀ other, t.outcome? other = s.outcome? other
  origin : ∀ other, t.origin? other = if join = other then some (.join members (left - 1) patient) else s.origin? other
  waiters : ∀ other, t.waiters other = s.waiters other
  queued : ∀ job ∈ t.queue, job ∈ s.queue
  wakes : t.wakes = s.wakes
  notices : s.notices = (.member join, id) :: t.notices

theorem counting {s : Schedule φ} (orderly : s.Orderly none) {join id : Nat} {queue : List Job}
    (next : s.queue = .tell (.member join) id :: queue) {members : List Nat} {left : Nat} {patient : Bool}
    (own : s.origin? join = some (.join members left patient)) :
    s.Counting (({ s with queue } : Schedule φ).countOff join members left patient) join id members left patient := by
  have held : ({ s with queue } : Schedule φ).origin? join = some (.join members left patient) := own
  have popped := Orderly.notices_pop next
  rw [← notices_countOff { s with queue } join members left patient] at popped
  constructor
  case own => exact own
  case settled => exact orderly.told _ id (next ▸ List.mem_cons_self ..)
  case size => exact size_countOff ..
  case outcome => exact outcome?_countOff _ join members left patient
  case origin => exact origin?_countOff held
  case waiters => exact waiters_countOff _ join members left patient
  case queued => exact fun job member => next ▸ List.mem_cons_of_mem _ member
  case wakes =>
    rw [Schedule.wakes, Schedule.wakes, popped, next]
    rfl
  case notices => exact popped

namespace Counting

variable {s t : Schedule φ} {join id : Nat} {members : List Nat} {left : Nat} {patient : Bool}

theorem opens (counting : s.Counting t join id members left patient) (other : Nat) : t.Open other ↔ s.Open other := by
  rw [Open, Open, counting.outcome, counting.size]

/-- A join is a join of the same members, though it may count one less. -/
theorem joins (counting : s.Counting t join id members left patient) {other : Nat} {others : List Nat} {rest : Nat} {lenient : Bool}
    (held : t.origin? other = some (.join others rest lenient)) :
    ∃ before, s.origin? other = some (.join others before lenient) ∧ rest = if join = other then before - 1 else before := by
  rw [counting.origin] at held
  split at held
  next same =>
    subst same
    cases held
    exact ⟨left, counting.own, by rw [if_pos rfl]⟩
  next other => exact ⟨rest, held, by rw [if_neg other]⟩

theorem noticed (counting : s.Counting t join id members left patient) {other member : Nat} (unsettled : s.Open member)
    (before : (.member other, member) ∈ s.notices) : (.member other, member) ∈ t.notices := by
  rw [counting.notices] at before
  rcases List.mem_cons.mp before with same | old
  · cases same
    exact absurd unsettled.2 counting.settled
  · exact old

theorem count (counting : s.Counting t join id members left patient) (other : Nat) :
    t.notices.countP (·.1.isFor other) = if join = other then s.notices.countP (·.1.isFor other) - 1 else
      s.notices.countP (·.1.isFor other) := by
  rw [counting.notices]
  split
  next same =>
    rw [List.countP_cons_of_pos (by simpa [Waiter.isFor] using same), Nat.add_sub_cancel]
  next different => rw [List.countP_cons_of_neg (by simpa [Waiter.isFor] using different)]

theorem orderly (counting : s.Counting t join id members left patient) (orderly : s.Orderly none) : t.Orderly none := by
  constructor
  case once => exact counting.wakes ▸ orderly.once
  case alive =>
    intro task member
    rw [counting.wakes] at member
    obtain ⟨unsettled, frames, held⟩ := orderly.alive task member
    have other : join ≠ task := by
      rintro rfl
      cases counting.own.symm.trans held
    exact ⟨(counting.opens task).mpr unsettled, frames, (counting.origin task).trans ((if_neg other).trans held)⟩
  case told =>
    intro waiter other member
    rw [counting.outcome]
    exact orderly.told waiter other (counting.queued _ member)
  case waited =>
    intro waiter other waits
    rw [counting.waiters] at waits
    rw [counting.outcome]
    exact orderly.waited waiter other waits
  case joined =>
    intro other told member
    obtain ⟨others, rest, lenient, held, among⟩ :=
      orderly.joined other told (counting.notices ▸ List.mem_cons_of_mem _ member)
    rw [counting.origin]
    split
    next same =>
      subst same
      cases counting.own.symm.trans held
      exact ⟨_, _, _, rfl, among⟩
    next => exact ⟨others, rest, lenient, held, among⟩
  case counted =>
    intro other others rest lenient held unsettled
    obtain ⟨before, isJoin, rfl⟩ := counting.joins held
    obtain ⟨count, within⟩ := orderly.counted other others before lenient isJoin ((counting.opens other).mp unsettled)
    rw [counting.count, count, counting.size]
    refine ⟨rfl, fun member isMember => ⟨(within member isMember).1, fun still => ?_⟩⟩
    have pending := (counting.opens member).mp still
    exact counting.noticed pending ((within member isMember).2 pending)
  case whole =>
    intro other others rest lenient held values ended
    rw [counting.outcome] at ended
    obtain ⟨before, isJoin, _⟩ := counting.joins held
    exact (orderly.whole other others before lenient isJoin values ended).later fun member _ => counting.outcome member

end Counting

namespace Orderly

variable {s : Schedule φ} {running : Option Nat}

/-- A join counts one member less. -/
theorem count_off (orderly : s.Orderly none) {join id : Nat} {queue : List Job}
    (next : s.queue = .tell (.member join) id :: queue) {members : List Nat} {left : Nat} {patient : Bool}
    (own : s.origin? join = some (.join members left patient)) :
    (({ s with queue } : Schedule φ).countOff join members left patient).Orderly none :=
  (counting orderly next own).orderly orderly

/-- A join that counts no more members knows all of them to be settled. -/
theorem all_settled (orderly : s.Orderly running) {join : Nat} {members : List Nat} {patient : Bool}
    (own : s.origin? join = some (.join members 0 patient)) (unsettled : s.Open join) :
    ∀ member ∈ members, s.outcome? member ≠ none := by
  intro member isMember pending
  obtain ⟨count, within⟩ := orderly.counted join members 0 patient own unsettled
  have noted := (within member isMember).2 ⟨(within member isMember).1, pending⟩
  exact List.countP_eq_zero.mp count _ noted (by simp [Waiter.isFor])

/-- A join is told of a member. -/
theorem pop_member (orderly : s.Orderly none) {join id : Nat} {queue : List Job}
    (next : s.queue = .tell (.member join) id :: queue) :
    (({ s with queue } : Schedule φ).report join id).Orderly none := by
  obtain ⟨others, rest, lenient, isJoin, _⟩ := orderly.joined join id (by rw [notices_pop next]; exact List.mem_cons_self ..)
  rcases report_cases { s with queue } join id with ⟨other, _⟩ | ⟨members, left, patient, held, same⟩
  · exact False.elim (other others rest lenient isJoin)
  · have counted := orderly.count_off next held
    have own : (({ s with queue } : Schedule φ).countOff join members left patient).origin? join =
        some (.join members (left - 1) patient) := by rw [origin?_countOff held, if_pos rfl]
    have noTask : ∀ task ∈ (none : Option Nat).toList ++ (({ s with queue } : Schedule φ).countOff join members left
        patient).wakes, task ≠ join := by
      rintro task member rfl
      obtain ⟨_, frames, asTask⟩ := counted.alive task member
      simp [own] at asTask
    rcases same with same | ⟨fault, _, _, same⟩ | ⟨rfl, same⟩
    · rw [same]; exact counted
    · rw [same]
      exact counted.settle _ (Or.inl rfl) noTask (by simp)
    · rw [same]
      by_cases unsettled : (({ s with queue } : Schedule φ).countOff join members 1 patient).Open join
      · apply counted.settle _ (Or.inl rfl) noTask
        intro others rest lenient again values same
        rw [own] at again
        cases again
        cases same
        exact ⟨rfl, counted.all_settled own unsettled⟩
      · rw [settle_closed unsettled]
        exact counted

end Orderly
end Schedule
end Interaction
