import Interaction.Proofs.Chronicle
import Interaction.Proofs.Leading

/-! Errands: tasks that are there to enter a state, or to hand over a situation. Whatever else
happens, such a task does what it is there for once at most, as the last of its steps, and ends well
only after that. -/

namespace Interaction

/-- Whether plain steps come first, and then one that serves a purpose. -/
def Bound (x : Purpose) (frames : List Frame) : Prop :=
  ∃ front last, frames = front ++ [last] ∧ Plain front ∧ last.purpose? = some x

inductive Final : Purpose → Frame → Prop where
  | enter (target : Value) : Final (.enter target) (.enterState target)
  | place (config : Value) (whole : Bool) : Final (.situation config) (.place config whole)

theorem bound_nil {x : Purpose} (bound : Bound x []) : False := by
  obtain ⟨front, last, same, _⟩ := bound
  exact absurd same (by simp)

theorem bound_last {x : Purpose} {last : Frame} (serves : last.purpose? = some x) : Bound x [last] :=
  ⟨[], last, rfl, nofun, serves⟩

theorem Bound.prepend {x : Purpose} {frames front : List Frame} (bound : Bound x frames) (plain : Plain front) :
    Bound x (front ++ frames) := by
  obtain ⟨more, last, rfl, others, serves⟩ := bound
  refine ⟨front ++ more, last, by rw [List.append_assoc], ?_, serves⟩
  intro frame member
  rcases List.mem_append.mp member with first | later
  · exact plain frame first
  · exact others frame later

/-- What a step leaves before its task, by what the step is for. -/
inductive Serves (frame : Frame) (next : List Frame) : Prop where
  | plain (none : frame.purpose? = none) (plain : Plain next)
  | final {x : Purpose} (final : Final x frame) (done : next = [])
  | bound {x : Purpose} (same : frame.purpose? = some x) (unfinished : ∀ y, ¬ Final y frame) (bound : Bound x next)

theorem Serves.purpose {frame other : Frame} {next : List Frame} {x : Purpose} (serves : Serves frame next) (member : other ∈ next)
    (purpose : other.purpose? = some x) : frame.purpose? = some x := by
  cases serves with
  | plain _ plain => cases (plain other member).symm.trans purpose
  | final _ done =>
    subst done
    cases member
  | bound same _ bound =>
    obtain ⟨front, last, rfl, plain, serves⟩ := bound
    rcases List.mem_append.mp member with first | final
    · cases (plain other first).symm.trans purpose
    · cases List.mem_singleton.mp final
      exact same.trans (serves.symm.trans purpose)

namespace Session

variable {s : Session} {task : Nat} {next : List Frame} {before : Supply}

theorem plain_steps {target : Target} {values : List Value} {late : List Frame} (replied : s.reply target values = .steps late) :
    Plain (late ++ [.follow target.config]) := by
  refine List.forall_mem_append.mpr ⟨fun frame member => ?_, by simp [Frame.purpose?]⟩
  have isLate := late_reply s target values replied frame member
  cases frame <;> first | rfl | cases isLate

/-- A step of a task keeps to what the task is there for. -/
theorem serves_step {frame : Frame} {values : List Value}
    (stand : (s.takeStep frame values).2.stand? = some (next, before)) : Serves frame next := by
  -- Situations and states are what tasks are there for; the steps of everything else are plain.
  cases leading_step stand with
  | steps replied => exact .plain rfl (plain_steps replied)
  | @situate config inner source =>
    have given : Plain [.invoke inner .null] := by simp [Plain, Frame.purpose?]
    exact .bound rfl (fun _ final => by cases final) ((bound_last rfl).prepend given)
  | materialize => exact .bound rfl (fun _ final => by cases final) (bound_last rfl)
  | arrange whole => exact .bound rfl (fun _ final => by cases final) (bound_last rfl)
  | @place config whole => exact .final (.place config whole) rfl
  | @enter target => exact .final (.enter target) rfl
  | _ => exact .plain rfl (by simp [Plain, Frame.purpose?])

end Session

namespace Milestone

/-- The task that passes a milestone as the last of its steps. -/
def task? : Milestone → Option Nat
  | .operate _ _ => none
  | .enter _ task _ | .place _ task _ _ _ => some task

def purpose? : Milestone → Option Purpose
  | .operate _ _ => none
  | .enter _ _ target => some (.enter target)
  | .place _ _ config _ _ => some (.situation config)

def refusal? : Milestone → Option Fault
  | .place s _ config whole values => s.refusal? config whole values
  | _ => none

end Milestone

namespace Session

variable {s : Session} {task id : Nat} {x : Purpose} {frame : Frame} {rest : List Frame} {values : List Value}

structure Serving (s : Session) (task : Nat) (x : Purpose) (k : Milestone) : Prop where
  task : k.task? = some task
  purpose : k.purpose? = some x
  session : k.session = s

theorem purpose_afterTransition (answer : Option Nat) : (afterTransition answer).purpose? = none := by
  cases answer <;> rfl

theorem passed?_final (s : Session) (task : Nat) (values : List Value) (final : Final x frame) :
    ∃ k, s.passed? task frame values = some k ∧ s.Serving task x k := by
  cases final with
  | enter target => exact ⟨_, rfl, rfl, rfl, rfl⟩
  | place config whole => exact ⟨_, rfl, rfl, rfl, rfl⟩

theorem executed?_task {place : Nat} {name : Value} {params : List Value} {k : Milestone}
    (executed : s.executed? place name params = some k) : k.task? = none := by
  unfold executed? at executed
  dsimp only at executed
  split at executed
  · unfold called? acted? at executed
    split at executed
    · split at executed <;> cases executed
      rfl
    · cases executed
  · cases executed

theorem passed?_task {k : Milestone} (passed : s.passed? id frame values = some k) (own : k.task? = some task) :
    id = task ∧ ∃ x, Final x frame := by
  cases frame with
  | enterState target =>
    cases passed
    exact ⟨Option.some.inj own, _, .enter target⟩
  | place config whole =>
    cases passed
    exact ⟨Option.some.inj own, _, .place config whole⟩
  | act action request =>
    cases action with
    | fire event => cases passed; cases own
    | _ => cases passed
  | call target => cases (executed?_task passed).symm.trans own
  | line text =>
    obtain ⟨o, _, rfl⟩ := Option.map_eq_some_iff.mp passed
    cases own
  | stop => cases passed; cases own
  | _ => cases passed

theorem met?_task {o : Occasion} {k : Milestone} (met : s.met? o = some k) (own : k.task? = some task) :
    o = .event .step ∧ ∃ frame rest values, s.turn = some { task, frames := frame :: rest, values } ∧ ∃ x, Final x frame := by
  cases o with
  | answering state transition => cases met
  | furnish factory => cases met
  | event e =>
    cases e with
    | step =>
      simp only [met?, milestone?] at met
      split at met
      next turn =>
        obtain ⟨rfl, final⟩ := passed?_task met own
        exact ⟨rfl, _, _, _, turn, final⟩
      · cases met
    | execute place name params => cases (executed?_task met).symm.trans own
    | load model => cases met; cases own
    | setRunning on => cases met; cases own
    | reset => cases met; cases own
    | fire name => cases met; cases own
    | _ => cases met

theorem met?_step (turn : s.turn = some { task, frames := frame :: rest, values }) :
    s.met? (.event .step) = s.passed? task frame values := by
  simp only [met?, milestone?, turn]

/-- A situation is handed over at once, and is refused if its task fails with that. -/
theorem placed {config : Value} {whole : Bool} :
    ((s.place config whole values).2 = .go [] [] ∧ s.refusal? config whole values = none) ∨
      ∃ fault, (s.place config whole values).2 = .fail fault ∧ s.refusal? config whole values = some fault := by
  obtain ⟨record, same⟩ := s.place_eq config whole values
  unfold refusal?
  rw [same]
  split
  · exact Or.inr ⟨_, rfl, rfl⟩
  · exact Or.inl ⟨rfl, rfl⟩

theorem refusal?_of_failed {config : Value} {whole : Bool} {k : Milestone} {fault : Fault}
    (passed : s.passed? task (.place config whole) values = some k)
    (failed : (s.takeStep (.place config whole) values).2 = .fail fault ∨ ∃ promise next,
      (s.takeStep (.place config whole) values).2 = .await promise next ∧
        (s.takeStep (.place config whole) values).1.schedule.outcome? promise = some (.error fault)) :
    k.refusal? = some fault := by
  rw [passed?] at passed
  cases Option.some.inj passed
  simp only [takeStep] at failed
  rcases s.placed with ⟨moved, _⟩ | ⟨given, moved, refused⟩ <;> rw [moved] at failed
  · rcases failed with failed | ⟨_, _, waits, _⟩
    · cases failed
    · cases waits
  · rcases failed with failed | ⟨_, _, waits, _⟩
    · cases failed
      exact refused
    · cases waits

/-- What settles a task that takes no step: its end, or a failure that it is told of. -/
theorem settles_idle (orderly : s.Orderly s.running) {o : Occasion} {outcome : Outcome}
    (role : s.schedule.role? task = some .task) (idle : ¬ s.Steps o task)
    (settled : (s.occur o).schedule.outcome? task = some outcome) :
    s.schedule.outcome? task = some outcome ∨ (∃ values, s.Stands task [] (.values values) ∧ outcome = .ok values) ∨
      ∃ frames promise fault, s.Stands task frames (.promise promise) ∧
        s.schedule.outcome? promise = some (.error fault) ∧ outcome = .error fault := by
  obtain ⟨_, held, _⟩ := Option.map_eq_some_iff.mp role
  have noJoin {members : List Nat} (joined : s.schedule.members? task = some members) : False := by
    cases (Schedule.members?_role role).symm.trans joined
  refine (settles_occur orderly o (Schedule.origin?_inside held) settled).imp_right ?_
  rintro ⟨e, rfl, settles⟩
  cases settles with
  | ended turn => exact Or.inl ⟨_, .turn turn, rfl⟩
  | failed isStep turn _ =>
    subst isStep
    exact absurd ⟨rfl, _, _, _, turn⟩ idle
  | told stands failed => exact Or.inr ⟨_, _, _, stands, failed, rfl⟩
  | joined join _ => exact False.elim (noJoin join)
  | broken join _ _ => exact False.elim (noJoin (Schedule.members?_role join))
  | outside origin => cases role.symm.trans (Schedule.role?_outside.mpr origin)

/-- Whether a task has a step before it that serves a purpose. -/
def Intends (s : Session) (task : Nat) (x : Purpose) : Prop :=
  ∃ frames supply, s.Stands task frames supply ∧ ∃ frame ∈ frames, frame.purpose? = some x

theorem Fresh.intends (fresh : s.Fresh) : ¬ s.Intends task x := by
  rintro ⟨frames, supply, stands, _⟩
  have inside := (stands.alive fresh.orderly).1.1
  rw [fresh.schedule] at inside
  cases inside

theorem met?_serving {o : Occasion} {k : Milestone} (met : s.met? o = some k) (own : k.task? = some task) :
    ∃ x, s.Serving task x k ∧ s.Intends task x := by
  obtain ⟨rfl, frame, rest, values, turn, x, final⟩ := met?_task met own
  obtain ⟨found, passed, serving⟩ := s.passed?_final task values final
  rw [met?_step turn] at met
  cases met.symm.trans passed
  refine ⟨x, serving, _, _, .turn turn, frame, List.mem_cons_self .., ?_⟩
  cases final <;> rfl

/-- What a task intends it intended before, unless it comes about: then it is to hand over the
situation of a mapping that is executed, or a transition leaves it behind. -/
theorem intends_occur (orderly : s.Orderly s.running) (o : Occasion) (intends : (s.occur o).Intends task x) :
    s.Intends task x ∨ (∃ place, x = .situation (.ref place) ∧ s.Executes o (.ref place) task) ∨
      ∃ k f, s.met? o = some k ∧ k.follower? = some f ∧ f.task = task ∧ x = .enter f.target := by
  obtain ⟨frames, supply, stands, frame, member, purpose⟩ := intends
  -- A task that is there stands where it stood, or has taken a step that is for the same.
  by_cases inside : task < s.schedule.promises.size
  · left
    by_cases steps : s.Steps o task
    · obtain ⟨rfl, first, rest, values, turn⟩ := steps
      obtain ⟨next, before, stand, rfl, _⟩ := stands_own orderly turn stands
      rcases List.mem_append.mp member with new | old
      · exact ⟨_, _, .turn turn, first, List.mem_cons_self .., (serves_step stand).purpose new purpose⟩
      · exact ⟨_, _, .turn turn, frame, List.mem_cons_of_mem _ old, purpose⟩
    · obtain ⟨before, stood, _⟩ := stands_occur orderly o inside steps stands
      exact ⟨frames, before, stood, frame, member, purpose⟩
  · right
    obtain ⟨e, rfl, bears⟩ := born_occur orderly o (Nat.le_of_not_lt inside) stands
    cases bears with
    | plain plain => cases (plain frame member).symm.trans purpose
    | @situation place executes same =>
      subst same
      cases List.mem_singleton.mp member
      cases purpose
      exact Or.inl ⟨place, rfl, executes⟩
    | @follower k f passed left own same =>
      refine Or.inr ⟨k, f, passed, left, own, ?_⟩
      subst same
      rcases List.mem_cons.mp member with rfl | last
      · rw [purpose_afterTransition] at purpose
        cases purpose
      · cases List.mem_singleton.mp last
        exact (Option.some.inj purpose).symm

end Session

namespace Chronicle

def accomplished (c : Chronicle) (task : Nat) : List Milestone :=
  c.milestones.filter fun k => k.task? = some task

/-- Whether a task is there for a purpose, and has served it once at most. -/
structure Errand (c : Chronicle) (task : Nat) (x : Purpose) : Prop where
  role : c.session.schedule.role? task = some .task
  stands : ∀ frames supply, c.session.Stands task frames supply → c.accomplished task = [] ∧ Bound x frames ∨
    c.accomplished task ≠ [] ∧ frames = [] ∧ ∀ config, x = .situation config → ∃ values, supply = .values values
  once : c.accomplished task = [] ∨ ∃ k, c.accomplished task = [k] ∧ k.purpose? = some x
  ended : ∀ values, c.session.schedule.outcome? task = some (.ok values) → c.accomplished task ≠ []
  failed : ∀ fault config, c.session.schedule.outcome? task = some (.error fault) → x = .situation config →
    ∀ k ∈ c.accomplished task, k.refusal? = some fault

variable {c : Chronicle} {task : Nat} {x : Purpose} {o : Occasion}

theorem accomplished_idle (idle : ¬ c.session.Steps o task) : (c.occur o).accomplished task = c.accomplished task := by
  unfold accomplished occur
  rw [List.filter_append]
  cases met : c.session.met? o with
  | none => simp
  | some k =>
    have other : k.task? ≠ some task := by
      intro own
      obtain ⟨isStep, frame, rest, values, turn, _⟩ := Session.met?_task met own
      exact idle ⟨isStep, frame, rest, values, turn⟩
    simp [other]

theorem Errand.inside (errand : c.Errand task x) : task < c.session.schedule.promises.size := by
  obtain ⟨_, held, _⟩ := Option.map_eq_some_iff.mp errand.role
  exact Schedule.origin?_inside held

theorem Errand.role_occur (errand : c.Errand task x) (orderly : c.session.Orderly c.session.running) (o : Occasion) :
    (c.occur o).session.schedule.role? task = some .task :=
  ((Session.occur_keeps orderly o).2.2 task errand.inside).trans errand.role

/-- Nothing changes for a task without a step of its own, but that it is told something, or ends. -/
theorem Errand.idle (errand : c.Errand task x) (orderly : c.session.Orderly c.session.running)
    (idle : ¬ c.session.Steps o task) : (c.occur o).Errand task x := by
  have same := accomplished_idle idle
  constructor
  case role => exact errand.role_occur orderly o
  case stands =>
    intro frames supply stands
    rw [same]
    obtain ⟨before, stood, supplied⟩ := Session.stands_occur orderly o errand.inside idle stands
    rcases errand.stands frames before stood with ahead | ⟨done, none, given⟩
    · exact Or.inl ahead
    · refine Or.inr ⟨done, none, fun config same => ?_⟩
      obtain ⟨values, rfl⟩ := given config same
      rcases supplied with rfl | ⟨id, _, waited, _⟩
      · exact ⟨values, rfl⟩
      · cases waited
  case once => exact same ▸ errand.once
  case ended =>
    intro values settled
    rw [same]
    rcases Session.settles_idle orderly errand.role idle settled with before | ⟨_, stands, _⟩ | ⟨_, _, _, _, _, failed⟩
    · exact errand.ended values before
    · rcases errand.stands _ _ stands with ⟨_, bound⟩ | ⟨done, _⟩
      · exact False.elim (bound_nil bound)
      · exact done
    · cases failed
  case failed =>
    intro fault config settled situation
    rw [same]
    rcases Session.settles_idle orderly errand.role idle settled with before | ⟨_, _, ended⟩ | ⟨_, _, _, stands, _, _⟩
    · exact errand.failed fault config before situation
    · cases ended
    · rcases errand.stands _ _ stands with ⟨none, _⟩ | ⟨_, _, given⟩
      · intro k member
        rw [none] at member
        cases member
      · obtain ⟨values, promised⟩ := given config situation
        cases promised

theorem accomplished_step {frame : Frame} {rest : List Frame} {values : List Value}
    (turn : c.session.turn = some { task, frames := frame :: rest, values }) :
    (c.occur (.event .step)).accomplished task =
      c.accomplished task ++ (c.session.passed? task frame values).toList.filter fun k => k.task? = some task := by
  rw [accomplished, occur, List.filter_append, Session.met?_step turn, accomplished]

/-- The step that a task is there for is its last one. -/
theorem Errand.serve (errand : c.Errand task x) (orderly : c.session.Orderly c.session.running) {frame : Frame}
    {values : List Value} (turn : c.session.turn = some { task, frames := [frame], values })
    (none : c.accomplished task = []) (final : Final x frame) : (c.occur (.event .step)).Errand task x := by
  obtain ⟨k, passed, serving⟩ := c.session.passed?_final task values final
  have done : (c.occur (.event .step)).accomplished task = [k] := by
    rw [accomplished_step turn, none, passed]
    simp [serving.task]
  constructor
  case role => exact errand.role_occur orderly _
  case stands =>
    intro frames supply stands
    obtain ⟨next, before, stand, rfl, supplied⟩ := Session.stands_own orderly turn stands
    have last : next = [] := by
      cases Session.serves_step stand with
      | plain plain _ => cases final <;> cases plain
      | final _ done => exact done
      | bound _ unfinished _ => exact absurd final (unfinished x)
    refine Or.inr ⟨by simp [done], by simp [last], ?_⟩
    rintro config rfl
    cases final with
    | place _ whole =>
      rcases c.session.placed with ⟨moved, _⟩ | ⟨fault, moved, _⟩ <;> rw [Session.takeStep, moved] at stand <;> cases stand
      rcases supplied with rfl | ⟨id, _, waited, _⟩
      · exact ⟨[], rfl⟩
      · cases waited
  case once => exact Or.inr ⟨k, done, serving.purpose⟩
  case ended => simp [done]
  case failed =>
    rintro fault config settled rfl k' member
    rw [done, List.mem_singleton] at member
    subst member
    obtain ⟨_, same, failed⟩ := Session.settles_step orderly turn settled
    cases same
    cases final with
    | place _ whole => exact Session.refusal?_of_failed passed failed

/-- Any other step leads on to the one that a task is there for. -/
theorem Errand.lead (errand : c.Errand task x) (orderly : c.session.Orderly c.session.running) {frame : Frame}
    {rest : List Frame} {values : List Value} (turn : c.session.turn = some { task, frames := frame :: rest, values })
    (none : c.accomplished task = []) (unfinished : ∀ y, ¬ Final y frame)
    (leads : ∀ next before, (c.session.takeStep frame values).2.stand? = some (next, before) → Bound x (next ++ rest)) :
    (c.occur (.event .step)).Errand task x := by
  have still : (c.occur (.event .step)).accomplished task = [] := by
    rw [accomplished_step turn, none, List.nil_append, List.filter_eq_nil_iff]
    intro k passed own
    obtain ⟨_, y, final⟩ := Session.passed?_task (Option.mem_toList.mp passed) (of_decide_eq_true own)
    exact unfinished y final
  constructor
  case role => exact errand.role_occur orderly _
  case stands =>
    intro frames supply stands
    obtain ⟨next, before, stand, rfl, _⟩ := Session.stands_own orderly turn stands
    exact Or.inl ⟨still, leads next before stand⟩
  case once => exact Or.inl still
  case ended =>
    intro given settled
    obtain ⟨_, failed, _⟩ := Session.settles_step orderly turn settled
    cases failed
  case failed =>
    intro fault config _ _ k member
    rw [still] at member
    cases member

theorem Errand.occur (errand : c.Errand task x) (orderly : c.session.Orderly c.session.running) (o : Occasion) :
    (c.occur o).Errand task x := by
  by_cases idle : c.session.Steps o task
  · obtain ⟨rfl, frame, rest, values, turn⟩ := idle
    obtain ⟨none, front, last, same, plain, serves⟩ : c.accomplished task = [] ∧ Bound x (frame :: rest) := by
      rcases errand.stands _ _ (.turn turn) with ahead | ⟨_, empty, _⟩
      · exact ahead
      · cases empty
    cases front with
    | nil =>
      -- The last step serves the purpose, or it is one that leads to the step that does.
      cases same
      by_cases final : Final x frame
      · exact errand.serve orderly turn none final
      · refine errand.lead orderly turn none ?_ ?_
        · intro y other
          cases other <;> cases serves <;> exact final (by constructor)
        · intro next before stand
          rw [List.append_nil]
          cases Session.serves_step stand with
          | plain plain _ => cases plain.symm.trans serves
          | final other _ => exact absurd (by cases other <;> cases serves <;> constructor) final
          | bound same _ bound => cases same.symm.trans serves; exact bound
    | cons first front =>
      cases same
      have none' := plain frame (List.mem_cons_self ..)
      refine errand.lead orderly turn none ?_ ?_
      · intro y other
        cases other <;> cases none'
      · intro next before stand
        have later : Bound x (front ++ [last]) :=
          ⟨front, last, rfl, fun f member => plain f (List.mem_cons_of_mem _ member), serves⟩
        cases Session.serves_step stand with
        | plain _ plain => exact later.prepend plain
        | final other _ => cases other <;> cases none'
        | bound same _ _ => cases none'.symm.trans same
  · exact errand.idle orderly idle

theorem Errand.course (errand : c.Errand task x) (orderly : c.session.Orderly c.session.running)
    (occasions : List Occasion) : (c.course occasions).Errand task x :=
  (along orderly (P := fun c => c.Errand task x) errand (fun _ o orderly errand => errand.occur orderly o) occasions).2

def Dated (c : Chronicle) : Prop :=
  ∀ k ∈ c.milestones, ∀ task, k.task? = some task → task < c.session.schedule.promises.size

theorem Dated.before (dated : c.Dated) (orderly : c.session.Orderly c.session.running) {k : Milestone}
    (member : k ∈ (c.occur o).milestones) (own : k.task? = some task) : task < c.session.schedule.promises.size := by
  rcases List.mem_append.mp member with old | new
  · exact dated k old task own
  · obtain ⟨_, _, _, _, turn, _⟩ := Session.met?_task (Option.mem_toList.mp new) own
    exact ((Session.Stands.turn turn).alive orderly).1.1

theorem Dated.occur (dated : c.Dated) (orderly : c.session.Orderly c.session.running) (o : Occasion) :
    (c.occur o).Dated := by
  intro k member task own
  exact Nat.lt_of_lt_of_le (dated.before orderly member own) (Session.occur_keeps orderly o).1

theorem Dated.course (dated : c.Dated) (orderly : c.session.Orderly c.session.running) (occasions : List Occasion) :
    (c.course occasions).Dated :=
  (along orderly (P := Dated) dated (fun _ o orderly dated => dated.occur orderly o) occasions).2

/-- A task that comes about is on its errand from then on. -/
theorem Errand.start (dated : c.Dated) (orderly : c.session.Orderly c.session.running) {frames : List Frame}
    (new : c.session.schedule.promises.size ≤ task) (queued : .run task ∈ (c.occur o).session.schedule.queue)
    (held : (c.occur o).session.schedule.origin? task = some (.task frames)) (bound : Bound x frames) :
    (c.occur o).Errand task x := by
  have later : (c.occur o).session.Orderly (c.occur o).session.running := orderly.occur o
  have none : (c.occur o).accomplished task = [] := by
    rw [accomplished, List.filter_eq_nil_iff]
    intro k member own
    exact absurd (dated.before orderly member (of_decide_eq_true own)) (Nat.not_lt_of_le new)
  have open_ := ((Session.Stands.queued queued held).alive later).1.2
  constructor
  case role => exact Schedule.role?_origin held
  case stands =>
    intro steps supply stands
    obtain ⟨rfl, _⟩ := (Session.stands_queued later queued held).mp stands
    exact Or.inl ⟨none, bound⟩
  case once => exact Or.inl none
  case ended =>
    intro values settled
    cases open_.symm.trans settled
  case failed =>
    intro fault config settled
    cases open_.symm.trans settled

end Chronicle

end Interaction
