import Interaction.Schedule
import Mathlib.Data.List.Basic

/-! What a schedule still has to do. A notice says that someone is still to be told of a
promise, either because it is not settled yet or because the telling is queued; settling
a promise only moves its notices. The operations are described by what they change. -/

namespace Interaction

/-- The task that goes on without being told of anything. -/
def Job.run? : Job → Option Nat
  | .run task => some task
  | .tell _ _ => none

/-- Who is told of which promise. -/
def Job.notice? : Job → Option (Waiter × Nat)
  | .run _ => none
  | .tell waiter id => some (waiter, id)

/-- The task that goes on when it is told. -/
def Waiter.task? : Waiter → Option Nat
  | .resume task => some task
  | _ => none

/-- What kind of thing will settle a promise. -/
inductive Role where
  | outside
  | task
  | join (members : List Nat) (patient : Bool)

def Role.members? : Role → Option (List Nat)
  | .join members _ => some members
  | _ => none

def Origin.role {φ : Type} : Origin φ → Role
  | .outside => .outside
  | .task _ => .task
  | .join members _ patient => .join members patient

namespace Schedule

variable {φ : Type}

/-- What will settle a promise. -/
def origin? (s : Schedule φ) (id : Nat) : Option (Origin φ) :=
  (s.promises[id]?).map (·.origin)

def waiters (s : Schedule φ) (id : Nat) : List Waiter :=
  ((s.promises[id]?).map (·.waiters)).getD []

/-- Who waits for which promise. -/
def waiting (s : Schedule φ) : List (Waiter × Nat) :=
  (List.range s.promises.size).flatMap fun id => (s.waiters id).map (·, id)

/-- Who is still to be told of which promise. -/
def notices (s : Schedule φ) : List (Waiter × Nat) :=
  s.queue.filterMap Job.notice? ++ s.waiting

/-- The tasks that are still to go on, as often as that is noted. -/
def wakes (s : Schedule φ) : List Nat :=
  s.queue.filterMap Job.run? ++ s.notices.filterMap (·.1.task?)

def role? (s : Schedule φ) (id : Nat) : Option Role :=
  (s.origin? id).map Origin.role

def members? (s : Schedule φ) (id : Nat) : Option (List Nat) :=
  (s.role? id).bind Role.members?

theorem role?_congr {s t : Schedule φ} {id : Nat} (same : t.origin? id = s.origin? id) : t.role? id = s.role? id :=
  congrArg _ same

theorem members?_congr {s t : Schedule φ} {id : Nat} (same : t.role? id = s.role? id) : t.members? id = s.members? id := by
  rw [members?, same]
  rfl

theorem role?_outside {s : Schedule φ} {id : Nat} : s.role? id = some .outside ↔ s.origin? id = some .outside := by
  rw [role?, Option.map_eq_some_iff]
  constructor
  · rintro ⟨origin, held, same⟩
    cases origin <;> cases same
    exact held
  · intro held
    exact ⟨_, held, rfl⟩

theorem role?_origin {s : Schedule φ} {id : Nat} {origin : Origin φ} (held : s.origin? id = some origin) :
    s.role? id = some origin.role := by
  rw [role?, held]
  rfl

theorem members?_role {s : Schedule φ} {id : Nat} {role : Role} (held : s.role? id = some role) :
    s.members? id = role.members? := by
  rw [members?, held]
  rfl

theorem members?_origin {s : Schedule φ} {id : Nat} {origin : Origin φ} (held : s.origin? id = some origin) :
    s.members? id = origin.role.members? :=
  members?_role (role?_origin held)

theorem members?_eq_some {s : Schedule φ} {id : Nat} {members : List Nat} :
    s.members? id = some members ↔ ∃ left patient, s.origin? id = some (.join members left patient) := by
  unfold members? role?
  cases s.origin? id with
  | none => simp
  | some origin => cases origin <;> simp [Origin.role, Role.members?]

theorem members?_eq_none {s : Schedule φ} {id : Nat} :
    s.members? id = none ↔ ∀ members left patient, s.origin? id ≠ some (.join members left patient) := by
  rw [← Option.not_isSome_iff_eq_none, Option.isSome_iff_exists]
  simp only [members?_eq_some, not_exists]

theorem origin?_inside {s : Schedule φ} {id : Nat} {origin : Origin φ} (held : s.origin? id = some origin) :
    id < s.promises.size := by
  obtain ⟨p, found, _⟩ := Option.map_eq_some_iff.mp held
  exact (Array.getElem?_eq_some_iff.mp found).1

theorem outcome?_inside {s : Schedule φ} {id : Nat} (settled : s.outcome? id ≠ none) : id < s.promises.size := by
  apply Classical.byContradiction
  intro outside
  simp [outcome?, Array.getElem?_eq_none (Nat.le_of_not_lt outside)] at settled

theorem waiters_inside {s : Schedule φ} {id : Nat} {waiter : Waiter} (waits : waiter ∈ s.waiters id) :
    id < s.promises.size := by
  apply Classical.byContradiction
  intro outside
  simp [waiters, Array.getElem?_eq_none (Nat.le_of_not_lt outside)] at waits

theorem mem_waiting {s : Schedule φ} {waiter : Waiter} {id : Nat} :
    (waiter, id) ∈ s.waiting ↔ waiter ∈ s.waiters id := by
  simp only [waiting, List.mem_flatMap, List.mem_range, List.mem_map, Prod.mk.injEq]
  constructor
  · rintro ⟨_, _, _, member, rfl, rfl⟩
    exact member
  · intro member
    exact ⟨id, waiters_inside member, waiter, member, rfl, rfl⟩

theorem mem_notices {s : Schedule φ} {waiter : Waiter} {id : Nat} :
    (waiter, id) ∈ s.notices ↔ Job.tell waiter id ∈ s.queue ∨ waiter ∈ s.waiters id := by
  simp only [notices, List.mem_append, mem_waiting, List.mem_filterMap]
  refine or_congr_left ⟨?_, fun told => ⟨_, told, rfl⟩⟩
  rintro ⟨job, queued, same⟩
  cases job <;> cases same
  exact queued

theorem mem_wakes {s : Schedule φ} {task : Nat} :
    task ∈ s.wakes ↔ Job.run task ∈ s.queue ∨ ∃ id, (Waiter.resume task, id) ∈ s.notices := by
  simp only [wakes, List.mem_append, List.mem_filterMap]
  constructor
  · rintro (⟨job, queued, same⟩ | ⟨⟨waiter, id⟩, noticed, same⟩)
    · cases job <;> cases same
      exact Or.inl queued
    · cases waiter <;> cases same
      exact Or.inr ⟨id, noticed⟩
  · rintro (queued | ⟨id, noticed⟩)
    · exact Or.inl ⟨_, queued, rfl⟩
    · exact Or.inr ⟨_, noticed, rfl⟩

theorem notices_next {s : Schedule φ} {job : Job} {queue : List Job} (next : s.queue = job :: queue) :
    s.notices = job.notice?.toList ++ ({ s with queue } : Schedule φ).notices := by
  rw [notices, next]
  cases job <;> rfl

theorem frames_congr {s t : Schedule φ} {task : Nat} (same : t.origin? task = s.origin? task) :
    t.frames task = s.frames task := by
  rw [origin?, origin?] at same
  unfold frames
  rw [same]

theorem frames_eq {s : Schedule φ} {task : Nat} {steps : List φ} (held : s.origin? task = some (.task steps)) :
    s.frames task = steps := by
  rw [origin?] at held
  unfold frames
  rw [held]

/-! New promises. -/

theorem getElem?_add (s : Schedule φ) (p : Promise φ) (id : Nat) :
    (s.add p).1.promises[id]? = if id = s.promises.size then some p else s.promises[id]? := by
  simp only [add, Array.getElem?_push]

theorem size_add (s : Schedule φ) (p : Promise φ) : (s.add p).1.promises.size = s.promises.size + 1 := by
  simp [add]

theorem outcome?_add (s : Schedule φ) (p : Promise φ) (id : Nat) :
    (s.add p).1.outcome? id = if id = s.promises.size then p.outcome else s.outcome? id := by
  simp only [outcome?, getElem?_add]
  split <;> rfl

theorem origin?_add (s : Schedule φ) (p : Promise φ) (id : Nat) :
    (s.add p).1.origin? id = if id = s.promises.size then some p.origin else s.origin? id := by
  simp only [origin?, getElem?_add]
  split <;> rfl

theorem waiters_add (s : Schedule φ) (p : Promise φ) (alone : p.waiters = []) (id : Nat) :
    (s.add p).1.waiters id = s.waiters id := by
  unfold waiters
  rw [getElem?_add]
  split
  next same => subst same; simp [alone]
  next => rfl

theorem waiting_add (s : Schedule φ) (p : Promise φ) (alone : p.waiters = []) : (s.add p).1.waiting = s.waiting := by
  have last : s.waiters s.promises.size = [] := by simp [waiters]
  simp only [waiting, size_add, waiters_add s p alone, List.range_succ, List.flatMap_append, List.flatMap_cons,
    List.flatMap_nil, last, List.map_nil, List.append_nil]

theorem notices_add (s : Schedule φ) (p : Promise φ) (alone : p.waiters = []) : (s.add p).1.notices = s.notices := by
  rw [notices, waiting_add s p alone]
  rfl

/-! Changes of one promise. -/

theorem getElem?_update (s : Schedule φ) (id : Nat) (f : Promise φ → Promise φ) (other : Nat) :
    (s.update id f).promises[other]? = if id = other then (s.promises[other]?).map f else s.promises[other]? := by
  simp only [update, Array.getElem?_modify]

theorem size_update (s : Schedule φ) (id : Nat) (f : Promise φ → Promise φ) :
    (s.update id f).promises.size = s.promises.size := by
  simp [update]

theorem waiters_update_ne (s : Schedule φ) {id other : Nat} (f : Promise φ → Promise φ) (different : id ≠ other) :
    (s.update id f).waiters other = s.waiters other := by
  simp only [waiters, getElem?_update, different, if_false]

theorem waiting_update (s : Schedule φ) {id : Nat} (inside : id < s.promises.size) (f : Promise φ → Promise φ) :
    ∃ others, s.waiting.Perm ((s.waiters id).map (·, id) ++ others) ∧
      (s.update id f).waiting.Perm (((s.update id f).waiters id).map (·, id) ++ others) := by
  have split : (List.range s.promises.size).Perm (id :: (List.range s.promises.size).erase id) :=
    List.perm_cons_erase (List.mem_range.mpr inside)
  refine ⟨((List.range s.promises.size).erase id).flatMap fun other => (s.waiters other).map (·, other), ?_, ?_⟩
  · exact (split.flatMap_right _).trans (by rw [List.flatMap_cons])
  · rw [waiting, size_update]
    apply (split.flatMap_right _).trans
    rw [List.flatMap_cons]
    refine List.Perm.append_left _ (List.Perm.of_eq (List.flatMap_congr ?_))
    intro other member
    have different : id ≠ other := by
      rintro rfl
      exact (List.nodup_range.not_mem_erase) member
    rw [waiters_update_ne s f different]

theorem waiting_update_same (s : Schedule φ) (id : Nat) (f : Promise φ → Promise φ)
    (same : ∀ p, (f p).waiters = p.waiters) : (s.update id f).waiting = s.waiting := by
  have kept (other : Nat) : (s.update id f).waiters other = s.waiters other := by
    simp only [waiters, getElem?_update]
    split
    · cases s.promises[other]? <;> simp [same]
    · rfl
  simp only [waiting, size_update, kept]

theorem origin?_update (s : Schedule φ) (id : Nat) (f : Promise φ → Promise φ) (same : ∀ p, (f p).origin = p.origin)
    (other : Nat) : (s.update id f).origin? other = s.origin? other := by
  simp only [origin?, getElem?_update]
  split
  · cases s.promises[other]? <;> simp [same]
  · rfl

theorem outcome?_update (s : Schedule φ) (id : Nat) (f : Promise φ → Promise φ)
    (same : ∀ p, (f p).outcome = p.outcome) (other : Nat) : (s.update id f).outcome? other = s.outcome? other := by
  simp only [outcome?, getElem?_update]
  split
  · cases s.promises[other]? <;> simp [same]
  · rfl

/-- Whether a promise is there and not settled yet. -/
def Open (s : Schedule φ) (id : Nat) : Prop :=
  id < s.promises.size ∧ s.outcome? id = none

theorem open_iff {s : Schedule φ} {id : Nat} :
    s.Open id ↔ ∃ p, s.promises[id]? = some p ∧ p.outcome = none := by
  unfold Open outcome?
  constructor
  · rintro ⟨inside, none⟩
    exact ⟨_, Array.getElem?_eq_getElem inside, by simpa [Array.getElem?_eq_getElem inside] using none⟩
  · rintro ⟨p, held, none⟩
    exact ⟨(Array.getElem?_eq_some_iff.mp held).1, by simpa [held] using none⟩

/-! Settling. -/

theorem settle_open {s : Schedule φ} {id : Nat} (unsettled : s.Open id) (outcome : Outcome) :
    s.settle id outcome = { s.update id fun p => { p with outcome := some outcome, waiters := [] } with
      queue := s.queue ++ (s.waiters id).map fun w => .tell w id } := by
  obtain ⟨p, held, none⟩ := open_iff.mp unsettled
  obtain ⟨origin, _, waiters⟩ := p
  cases none
  simp only [settle, held, Schedule.waiters, Option.map_some, Option.getD_some]
  rfl

theorem settle_closed {s : Schedule φ} {id : Nat} (settled : ¬ s.Open id) (outcome : Outcome) :
    s.settle id outcome = s := by
  unfold settle
  split
  next origin waiters held => exact False.elim (settled (open_iff.mpr ⟨_, held, rfl⟩))
  next => rfl

theorem outcome?_settle (s : Schedule φ) (id : Nat) (outcome : Outcome) (other : Nat) :
    (s.settle id outcome).outcome? other = s.outcome? other ∨
      id = other ∧ s.Open id ∧ (s.settle id outcome).outcome? other = some outcome := by
  by_cases unsettled : s.Open id
  · rw [settle_open unsettled]
    by_cases same : id = other
    · subst same
      refine Or.inr ⟨rfl, unsettled, ?_⟩
      obtain ⟨p, held, _⟩ := open_iff.mp unsettled
      simp only [outcome?, getElem?_update, held, if_true, Option.map_some, Option.bind_some]
    · exact Or.inl (by simp only [outcome?, getElem?_update, same, if_false])
  · exact Or.inl (by rw [settle_closed unsettled])

theorem outcome?_settle_self {s : Schedule φ} {id : Nat} (unsettled : s.Open id) (outcome : Outcome) :
    (s.settle id outcome).outcome? id = some outcome := by
  obtain ⟨p, held, _⟩ := open_iff.mp unsettled
  simp only [settle_open unsettled, outcome?, getElem?_update, held, if_true, Option.map_some, Option.bind_some]

theorem outcome?_settle_kept (s : Schedule φ) (id : Nat) (outcome : Outcome) {other : Nat}
    (settled : s.outcome? other ≠ none) : (s.settle id outcome).outcome? other = s.outcome? other := by
  rcases outcome?_settle s id outcome other with same | ⟨rfl, unsettled, _⟩
  · exact same
  · exact False.elim (settled unsettled.2)

theorem size_settle (s : Schedule φ) (id : Nat) (outcome : Outcome) :
    (s.settle id outcome).promises.size = s.promises.size := by
  by_cases unsettled : s.Open id
  · rw [settle_open unsettled]
    exact size_update ..
  · rw [settle_closed unsettled]

theorem origin?_settle (s : Schedule φ) (id : Nat) (outcome : Outcome) (other : Nat) :
    (s.settle id outcome).origin? other = s.origin? other := by
  by_cases unsettled : s.Open id
  · rw [settle_open unsettled]
    exact origin?_update s id (fun p => { p with outcome := some outcome, waiters := [] }) (fun _ => rfl) other
  · rw [settle_closed unsettled]

theorem waiters_settle_ne (s : Schedule φ) {id other : Nat} (outcome : Outcome) (different : id ≠ other) :
    (s.settle id outcome).waiters other = s.waiters other := by
  by_cases unsettled : s.Open id
  · rw [settle_open unsettled]
    exact waiters_update_ne s _ different
  · rw [settle_closed unsettled]

theorem waiters_settle_self {s : Schedule φ} {id : Nat} (unsettled : s.Open id) (outcome : Outcome) :
    (s.settle id outcome).waiters id = [] := by
  obtain ⟨p, held, _⟩ := open_iff.mp unsettled
  simp only [settle_open unsettled, waiters, getElem?_update, held, if_true, Option.map_some, Option.getD_some]

theorem notices_settle (s : Schedule φ) (id : Nat) (outcome : Outcome) :
    (s.settle id outcome).notices.Perm s.notices := by
  by_cases unsettled : s.Open id
  · obtain ⟨others, before, after⟩ := waiting_update s unsettled.1
      fun p => { p with outcome := some outcome, waiters := [] }
    have none : (s.update id fun p => { p with outcome := some outcome, waiters := [] }).waiters id = [] := by
      have := waiters_settle_self unsettled outcome
      rwa [settle_open unsettled] at this
    have moved : ((s.waiters id).map fun w => Job.tell w id).filterMap Job.notice? =
        (s.waiters id).map (·, id) := by
      rw [List.filterMap_map]
      exact List.filterMap_eq_map (f := fun w => (w, id)) ▸ rfl
    rw [settle_open unsettled]
    simp only [notices, List.filterMap_append, moved, List.append_assoc]
    rw [none, List.map_nil, List.nil_append] at after
    exact List.Perm.append_left _ ((List.Perm.append_left _ after).trans before.symm)
  · rw [settle_closed unsettled]

theorem runs_settle (s : Schedule φ) (id : Nat) (outcome : Outcome) :
    (s.settle id outcome).queue.filterMap Job.run? = s.queue.filterMap Job.run? := by
  by_cases unsettled : s.Open id
  · rw [settle_open unsettled]
    simp only [List.filterMap_append, List.filterMap_map]
    have none : (s.waiters id).filterMap (Job.run? ∘ fun w => Job.tell w id) = [] := by
      induction s.waiters id with
      | nil => rfl
      | cons w rest ih => simp [Job.run?]
    rw [none, List.append_nil]
  · rw [settle_closed unsettled]

theorem mem_queue_settle {s : Schedule φ} {id : Nat} {outcome : Outcome} {job : Job} :
    job ∈ (s.settle id outcome).queue ↔
      job ∈ s.queue ∨ s.Open id ∧ ∃ waiter ∈ s.waiters id, job = .tell waiter id := by
  by_cases unsettled : s.Open id
  · rw [settle_open unsettled]
    simp [unsettled, eq_comm]
  · rw [settle_closed unsettled]
    simp [unsettled]

/-! Waiting. -/

theorem watch_open {s : Schedule φ} {id : Nat} (pending : s.outcome? id = none) (waiter : Waiter) :
    s.watch id waiter = s.update id fun p => { p with waiters := p.waiters ++ [waiter] } := by
  simp [watch, isPending, pending]

theorem watch_settled {s : Schedule φ} {id : Nat} {outcome : Outcome} (settled : s.outcome? id = some outcome)
    (waiter : Waiter) : s.watch id waiter = { s with queue := s.queue ++ [.tell waiter id] } := by
  simp [watch, isPending, settled]

theorem watch_outside {s : Schedule φ} {id : Nat} (outside : ¬ id < s.promises.size) (waiter : Waiter) :
    s.watch id waiter = s := by
  have absent : s.outcome? id = none := by simp [outcome?, Array.getElem?_eq_none (Nat.le_of_not_lt outside)]
  rw [watch_open absent, update]
  congr 1
  apply Array.ext_getElem?
  intro other
  rw [Array.getElem?_modify]
  split
  next same => subst same; simp [Array.getElem?_eq_none (Nat.le_of_not_lt outside)]
  next => rfl

theorem size_watch (s : Schedule φ) (id : Nat) (waiter : Waiter) :
    (s.watch id waiter).promises.size = s.promises.size := by
  cases settled : s.outcome? id with
  | none => rw [watch_open settled, size_update]
  | some outcome => rw [watch_settled settled]

theorem outcome?_watch (s : Schedule φ) (id : Nat) (waiter : Waiter) (other : Nat) :
    (s.watch id waiter).outcome? other = s.outcome? other := by
  cases settled : s.outcome? id with
  | none =>
    rw [watch_open settled]
    exact outcome?_update s id (fun p => { p with waiters := p.waiters ++ [waiter] }) (fun _ => rfl) other
  | some outcome => rw [watch_settled settled]; rfl

theorem origin?_watch (s : Schedule φ) (id : Nat) (waiter : Waiter) (other : Nat) :
    (s.watch id waiter).origin? other = s.origin? other := by
  cases settled : s.outcome? id with
  | none =>
    rw [watch_open settled]
    exact origin?_update s id (fun p => { p with waiters := p.waiters ++ [waiter] }) (fun _ => rfl) other
  | some outcome => rw [watch_settled settled]; rfl

theorem waiters_watch_self {s : Schedule φ} {id : Nat} (unsettled : s.Open id) (waiter : Waiter) :
    (s.watch id waiter).waiters id = s.waiters id ++ [waiter] := by
  obtain ⟨p, held, _⟩ := open_iff.mp unsettled
  simp only [watch_open unsettled.2, waiters, getElem?_update, held, if_true, Option.map_some, Option.getD_some]

theorem mem_waiters_watch {s : Schedule φ} {id other : Nat} {waiter w : Waiter} :
    w ∈ (s.watch id waiter).waiters other ↔ w ∈ s.waiters other ∨ s.Open id ∧ id = other ∧ w = waiter := by
  by_cases same : id = other
  · subst same
    by_cases unsettled : s.Open id
    · simp [waiters_watch_self unsettled, unsettled]
    · simp only [unsettled, false_and, or_false]
      cases settled : s.outcome? id with
      | some outcome => rw [watch_settled settled]; rfl
      | none =>
        have outside : ¬ id < s.promises.size := fun inside => unsettled ⟨inside, settled⟩
        simp [watch_open settled, waiters, getElem?_update, Array.getElem?_eq_none (Nat.le_of_not_lt outside)]
  · simp only [same, false_and, and_false, or_false]
    cases settled : s.outcome? id with
    | some outcome => rw [watch_settled settled]; rfl
    | none => rw [watch_open settled, waiters_update_ne s _ same]

theorem mem_queue_watch {s : Schedule φ} {id : Nat} {waiter : Waiter} {job : Job} :
    job ∈ (s.watch id waiter).queue ↔ job ∈ s.queue ∨ s.outcome? id ≠ none ∧ job = .tell waiter id := by
  cases settled : s.outcome? id with
  | none => simp [watch_open settled, update]
  | some outcome => simp [watch_settled settled]

theorem notices_watch (s : Schedule φ) {id : Nat} (inside : id < s.promises.size) (waiter : Waiter) :
    (s.watch id waiter).notices.Perm ((waiter, id) :: s.notices) := by
  cases settled : s.outcome? id with
  | some outcome =>
    rw [watch_settled settled]
    simp only [notices, List.filterMap_append, List.append_assoc]
    exact List.perm_middle
  | none =>
    obtain ⟨others, before, after⟩ := waiting_update s inside fun p => { p with waiters := p.waiters ++ [waiter] }
    have grown := waiters_watch_self ⟨inside, settled⟩ waiter
    rw [watch_open settled] at grown ⊢
    rw [grown, List.map_append, List.append_assoc] at after
    have whole : (s.update id fun p => { p with waiters := p.waiters ++ [waiter] }).waiting.Perm
        ((waiter, id) :: s.waiting) :=
      (after.trans List.perm_middle).trans (before.symm.cons _)
    exact (List.Perm.append_left _ whole).trans List.perm_middle

theorem mem_notices_watch {s : Schedule φ} {id : Nat} {waiter : Waiter} {notice : Waiter × Nat} :
    notice ∈ (s.watch id waiter).notices ↔
      notice ∈ s.notices ∨ id < s.promises.size ∧ notice = (waiter, id) := by
  by_cases inside : id < s.promises.size
  · rw [(notices_watch s inside waiter).mem_iff, List.mem_cons]
    exact ⟨fun either => either.symm.imp_right fun same => ⟨inside, same⟩, fun either => either.symm.imp_left And.right⟩
  · rw [watch_outside inside]
    exact ⟨Or.inl, fun either => either.resolve_right fun new => inside new.1⟩

theorem runs_watch (s : Schedule φ) (id : Nat) (waiter : Waiter) :
    (s.watch id waiter).queue.filterMap Job.run? = s.queue.filterMap Job.run? := by
  cases settled : s.outcome? id with
  | none => rw [watch_open settled]; rfl
  | some outcome => rw [watch_settled settled, List.filterMap_append]; simp [Job.run?]

/-! The steps that a task still has before it. -/

theorem origin?_suspend (s : Schedule φ) (task : Nat) (frames : List φ) (other : Nat) :
    (s.suspend task frames).origin? other =
      if task = other then (s.origin? other).map fun _ => .task frames else s.origin? other := by
  simp only [suspend, origin?, getElem?_update]
  split
  · cases s.promises[other]? <;> rfl
  · rfl

theorem outcome?_suspend (s : Schedule φ) (task : Nat) (frames : List φ) (other : Nat) :
    (s.suspend task frames).outcome? other = s.outcome? other :=
  outcome?_update s task (fun p => { p with origin := .task frames }) (fun _ => rfl) other

theorem waiters_suspend (s : Schedule φ) (task : Nat) (frames : List φ) (other : Nat) :
    (s.suspend task frames).waiters other = s.waiters other := by
  simp only [suspend, waiters, getElem?_update]
  split
  · cases s.promises[other]? <;> rfl
  · rfl

theorem notices_suspend (s : Schedule φ) (task : Nat) (frames : List φ) :
    (s.suspend task frames).notices = s.notices := by
  have same := waiting_update_same s task (fun p => { p with origin := .task frames }) fun _ => rfl
  rw [notices, suspend, same]
  rfl

theorem size_suspend (s : Schedule φ) (task : Nat) (frames : List φ) :
    (s.suspend task frames).promises.size = s.promises.size :=
  size_update ..

theorem notices_run (s : Schedule φ) (task : Nat) :
    ({ s with queue := s.queue ++ [.run task] } : Schedule φ).notices = s.notices := by
  simp only [notices, List.filterMap_append]
  rw [show List.filterMap Job.notice? [Job.run task] = [] from rfl, List.append_nil]
  rfl

/-! Waiting for several promises. -/

/-- Lets someone wait for each of several promises. -/
def watchAll (s : Schedule φ) (ids : List Nat) (waiter : Waiter) : Schedule φ :=
  ids.foldl (fun current id => current.watch id waiter) s

theorem watchAll_cons (s : Schedule φ) (id : Nat) (ids : List Nat) (waiter : Waiter) :
    s.watchAll (id :: ids) waiter = (s.watch id waiter).watchAll ids waiter := rfl

theorem size_watchAll (s : Schedule φ) (ids : List Nat) (waiter : Waiter) :
    (s.watchAll ids waiter).promises.size = s.promises.size := by
  induction ids generalizing s with
  | nil => rfl
  | cons id ids ih => rw [watchAll_cons, ih, size_watch]

theorem outcome?_watchAll (s : Schedule φ) (ids : List Nat) (waiter : Waiter) (other : Nat) :
    (s.watchAll ids waiter).outcome? other = s.outcome? other := by
  induction ids generalizing s with
  | nil => rfl
  | cons id ids ih => rw [watchAll_cons, ih, outcome?_watch]

theorem origin?_watchAll (s : Schedule φ) (ids : List Nat) (waiter : Waiter) (other : Nat) :
    (s.watchAll ids waiter).origin? other = s.origin? other := by
  induction ids generalizing s with
  | nil => rfl
  | cons id ids ih => rw [watchAll_cons, ih, origin?_watch]

theorem runs_watchAll (s : Schedule φ) (ids : List Nat) (waiter : Waiter) :
    (s.watchAll ids waiter).queue.filterMap Job.run? = s.queue.filterMap Job.run? := by
  induction ids generalizing s with
  | nil => rfl
  | cons id ids ih => rw [watchAll_cons, ih, runs_watch]

theorem mem_waiters_watchAll {s : Schedule φ} {ids : List Nat} {waiter w : Waiter} {other : Nat} :
    w ∈ (s.watchAll ids waiter).waiters other ↔ w ∈ s.waiters other ∨ s.Open other ∧ other ∈ ids ∧ w = waiter := by
  induction ids generalizing s with
  | nil => simp [watchAll]
  | cons id ids ih =>
    have same : (s.watch id waiter).Open other ↔ s.Open other := by rw [Open, Open, size_watch, outcome?_watch]
    rw [watchAll_cons, ih, mem_waiters_watch, same, List.mem_cons]
    grind

theorem mem_queue_watchAll {s : Schedule φ} {ids : List Nat} {waiter : Waiter} {job : Job} :
    job ∈ (s.watchAll ids waiter).queue ↔
      job ∈ s.queue ∨ ∃ id ∈ ids, s.outcome? id ≠ none ∧ job = .tell waiter id := by
  induction ids generalizing s with
  | nil => simp [watchAll]
  | cons id ids ih =>
    rw [watchAll_cons, ih, mem_queue_watch]
    simp only [outcome?_watch, List.mem_cons, exists_eq_or_imp, or_assoc]

theorem notices_watchAll (s : Schedule φ) {ids : List Nat} (inside : ∀ id ∈ ids, id < s.promises.size)
    (waiter : Waiter) : (s.watchAll ids waiter).notices.Perm (ids.map (waiter, ·) ++ s.notices) := by
  induction ids generalizing s with
  | nil => exact .refl _
  | cons id ids ih =>
    have first := notices_watch s (inside id (List.mem_cons_self ..)) waiter
    have rest := ih (s.watch id waiter) fun other member => by
      rw [size_watch]
      exact inside other (List.mem_cons_of_mem _ member)
    exact rest.trans ((List.Perm.append_left _ first).trans List.perm_middle)

theorem join_nil (s : Schedule φ) (patient : Bool) : s.join [] patient = s.settled (.ok []) := rfl

/-- The members of a join are watched once it is there. -/
theorem join_members (s : Schedule φ) {members : List Nat} (nonempty : members ≠ []) (patient : Bool) :
    s.join members patient =
      ((s.add { origin := .join members members.length patient }).1.watchAll members (.member s.promises.size),
        s.promises.size) := by
  cases members with
  | nil => exact False.elim (nonempty rfl)
  | cons first rest => rfl

/-- A join without one of the members that it still counts. -/
def countOff (s : Schedule φ) (join : Nat) (members : List Nat) (left : Nat) (patient : Bool) : Schedule φ :=
  s.update join fun p => { p with origin := .join members (left - 1) patient }

theorem size_countOff (s : Schedule φ) (join : Nat) (members : List Nat) (left : Nat) (patient : Bool) :
    (s.countOff join members left patient).promises.size = s.promises.size :=
  size_update ..

theorem outcome?_countOff (s : Schedule φ) (join : Nat) (members : List Nat) (left : Nat) (patient : Bool) (id : Nat) :
    (s.countOff join members left patient).outcome? id = s.outcome? id :=
  outcome?_update s join (fun p => { p with origin := .join members (left - 1) patient }) (fun _ => rfl) id

theorem origin?_countOff {s : Schedule φ} {join : Nat} {members : List Nat} {left : Nat} {patient : Bool}
    (held : s.origin? join = some (.join members left patient)) (id : Nat) :
    (s.countOff join members left patient).origin? id =
      if join = id then some (.join members (left - 1) patient) else s.origin? id := by
  rw [countOff, origin?, getElem?_update]
  split
  next same =>
    subst same
    obtain ⟨p, found, _⟩ := Option.map_eq_some_iff.mp held
    simp [found]
  next => rfl

theorem waiters_countOff (s : Schedule φ) (join : Nat) (members : List Nat) (left : Nat) (patient : Bool) (id : Nat) :
    (s.countOff join members left patient).waiters id = s.waiters id := by
  rw [countOff, waiters, waiters, getElem?_update]
  split
  · cases s.promises[id]? <;> rfl
  · rfl

theorem notices_countOff (s : Schedule φ) (join : Nat) (members : List Nat) (left : Nat) (patient : Bool) :
    (s.countOff join members left patient).notices = s.notices := by
  have same := waiting_update_same s join (fun p => { p with origin := .join members (left - 1) patient }) fun _ => rfl
  rw [notices, countOff, same]
  rfl

/-- What a join does that is told of a member. -/
theorem report_cases (s : Schedule φ) (join member : Nat) :
    (∀ members left patient, s.origin? join ≠ some (.join members left patient)) ∧ s.report join member = s ∨
    ∃ members left patient, s.origin? join = some (.join members left patient) ∧
      (s.report join member = s.countOff join members left patient ∨
      (∃ fault, patient = false ∧ s.outcome? member = some (.error fault) ∧
        s.report join member = (s.countOff join members left patient).settle join (.error fault)) ∨
      (left = 1 ∧ s.report join member = (s.countOff join members left patient).settle join
        (.ok ((s.countOff join members left patient).gathered members)))) := by
  unfold report
  split
  next members left patient held =>
    refine Or.inr ⟨members, left, patient, held, ?_⟩
    dsimp only
    split
    next fault failed => exact Or.inr (Or.inl ⟨fault, rfl, (outcome?_countOff ..).symm.trans failed, rfl⟩)
    next =>
      split
      next last => exact Or.inr (Or.inr ⟨last, rfl⟩)
      next => exact Or.inl rfl
  next other => exact Or.inl ⟨other, rfl⟩

theorem size_report (s : Schedule φ) (join member : Nat) :
    (s.report join member).promises.size = s.promises.size := by
  rcases report_cases s join member with ⟨_, same⟩ | ⟨members, left, patient, _, same | ⟨_, _, _, same⟩ | ⟨_, same⟩⟩ <;>
    simp only [same, size_settle, size_countOff]

theorem origin?_report (s : Schedule φ) (join member : Nat) {id : Nat}
    (other : ∀ members left patient, s.origin? id ≠ some (.join members left patient)) :
    (s.report join member).origin? id = s.origin? id := by
  rcases report_cases s join member with ⟨_, same⟩ | ⟨members, left, patient, held, same⟩
  · rw [same]
  · have different : join ≠ id := by
      rintro rfl
      exact other _ _ _ held
    rcases same with same | ⟨_, _, _, same⟩ | ⟨_, same⟩ <;>
      simp only [same, origin?_settle, origin?_countOff held, if_neg different]

theorem origin?_report_join (s : Schedule φ) (join member : Nat) {id : Nat} {members : List Nat} {left : Nat}
    {patient : Bool} (held : s.origin? id = some (.join members left patient)) :
    ∃ left, (s.report join member).origin? id = some (.join members left patient) := by
  rcases report_cases s join member with ⟨_, same⟩ | ⟨others, rest, lenient, own, same⟩
  · exact ⟨left, by rw [same, held]⟩
  · have counted : ∃ left, (s.countOff join others rest lenient).origin? id = some (.join members left patient) := by
      rw [origin?_countOff own]
      split
      next same =>
        subst same
        rw [own] at held
        cases held
        exact ⟨_, rfl⟩
      next => exact ⟨left, held⟩
    rcases same with same | ⟨_, _, _, same⟩ | ⟨_, same⟩ <;> simpa only [same, origin?_settle] using counted

theorem origin?_report_task (s : Schedule φ) (join member : Nat) {id : Nat} {steps : List φ} :
    (s.report join member).origin? id = some (.task steps) ↔ s.origin? id = some (.task steps) := by
  constructor
  · intro held
    by_cases other : ∀ members left patient, s.origin? id ≠ some (.join members left patient)
    · rwa [origin?_report s join member other] at held
    · simp only [not_forall, Classical.not_not] at other
      obtain ⟨members, left, patient, isJoin⟩ := other
      obtain ⟨_, still⟩ := origin?_report_join s join member isJoin
      rw [held] at still
      cases still
  · intro held
    rw [origin?_report s join member (by simp [held]), held]

theorem role?_report (s : Schedule φ) (join member id : Nat) : (s.report join member).role? id = s.role? id := by
  by_cases other : ∀ members left patient, s.origin? id ≠ some (.join members left patient)
  · exact role?_congr (origin?_report s join member other)
  · simp only [not_forall, Classical.not_not] at other
    obtain ⟨members, left, patient, held⟩ := other
    obtain ⟨_, still⟩ := origin?_report_join s join member held
    simp [role?, held, still, Origin.role]

/-- Being told settles the join if anything, and only if it is open. -/
theorem outcome?_report (s : Schedule φ) (join member : Nat) {id : Nat} (other : join = id → s.outcome? id ≠ none) :
    (s.report join member).outcome? id = s.outcome? id := by
  have settled (outcome : Outcome) (members : List Nat) (left : Nat) (patient : Bool) :
      ((s.countOff join members left patient).settle join outcome).outcome? id = s.outcome? id := by
    rcases outcome?_settle (s.countOff join members left patient) join outcome id with same | ⟨same, unsettled, _⟩
    · rw [same, outcome?_countOff]
    · have none := unsettled.2
      subst same
      rw [outcome?_countOff] at none
      exact False.elim (other rfl none)
  rcases report_cases s join member with ⟨_, same⟩ | ⟨members, left, patient, held, same⟩
  · rw [same]
  · rcases same with same | ⟨_, _, _, same⟩ | ⟨_, same⟩
    · rw [same, outcome?_countOff]
    · rw [same, settled]
    · rw [same, settled]

theorem notices_report (s : Schedule φ) (join member : Nat) : (s.report join member).notices.Perm s.notices := by
  rcases report_cases s join member with ⟨_, same⟩ | ⟨members, left, patient, held, same⟩
  · rw [same]
  · rcases same with same | ⟨_, _, _, same⟩ | ⟨_, same⟩ <;> rw [same]
    · rw [notices_countOff]
    · exact (notices_settle ..).trans (by rw [notices_countOff])
    · exact (notices_settle ..).trans (by rw [notices_countOff])

theorem runs_report (s : Schedule φ) (join member : Nat) :
    (s.report join member).queue.filterMap Job.run? = s.queue.filterMap Job.run? := by
  rcases report_cases s join member with ⟨_, same⟩ | ⟨members, left, patient, held, same⟩
  · rw [same]
  · rcases same with same | ⟨_, _, _, same⟩ | ⟨_, same⟩ <;> simp only [same, runs_settle] <;> rfl

end Schedule
end Interaction
