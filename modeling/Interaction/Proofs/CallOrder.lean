import Interaction.Proofs.Containment
import Interaction.Proofs.Enrolling

/-! In which order the parts of a call are done. Whatever a step for an invocation needs has been done by
then: the call that gives the parameters, each call that maps one of them, and the method. That is found by
going back from the step to those that have brought the invocation so far. -/

namespace Interaction

/-- Whether a step maps parameters, and which: those that it is handed, the items of a list that a call has
given, or what a configuration has itself. -/
inductive Session.Maps (s : Session) (values : List Value) : Frame → List Value → Prop where
  | handed {target : Target} : Maps s values (.map target) values
  | derived {config : Value} {items : List Value} (list : values.head?.bind s.listItems? = some items) :
      Maps s values (.arrange config) items
  | whole {config : Value} (other : values.head?.bind s.listItems? = none) : Maps s values (.arrange config) []
  | literal {config : Value} {items given : List Value}
      (source : s.store.source (s.store.field config "parameters") = .literal items)
      (resolved : s.store.resolveItems s.coordinator.context items = .ok given) : Maps s values (.materialize config) given
  | absent {config : Value} (source : s.store.source (s.store.field config "parameters") = .absent) :
      Maps s values (.materialize config) []

namespace Session

variable {s : Session}

/-- How often each method has been called changes with a step that calls one. -/
theorem counts_takeStep (s : Session) {frame : Frame} (values : List Value) (other : ∀ target, frame ≠ .call target) :
    (s.takeStep frame values).1.coordinator.counts = s.coordinator.counts := by
  have acting := s.acting_step frame values
  generalize (s.takeStep frame values).1 = t at acting ⊢
  have same (coordinator : t.coordinator = s.coordinator) : t.coordinator.counts = s.coordinator.counts :=
    congrArg Coordinator.counts coordinator
  cases acting with
  | idle | drain | ask | announce | stopped => rfl
  | map _ mapping items next => exact same (s.coordinator_mapEach mapping items next)
  | call target => exact absurd rfl (other target)
  | place config whole =>
    obtain ⟨_, _, _, placed, _⟩ := s.place_made config whole values
    rw [placed]
  | enter target => exact same (s.coordinator_consult .state (s.store.field target "do"))
  | act action request => exact same (s.coordinator_act action request)
  | line text => exact same (s.obeys_line text).coordinator
  | stop => exact same (s.fst_setRunning false ▸ s.coordinator_operate (.setRunning false))

theorem counts_call (s : Session) (target : Target) (values : List Value) :
    (s.takeStep (.call target) values).1.coordinator.counts = s.coordinator.counts ∨
      ∃ m, (s.coordinator.service target.service).method? (.text target.method) = some m ∧
        (s.takeStep (.call target) values).1.coordinator.counts = s.coordinator.counts.modify m.counter (· + 1) := by
  have responds := (s.announceCall target values).responds_execute target.service (.text target.method) values
  rw [takeStep, fst_callTarget]
  generalize (s.announceCall target values).execute target.service (.text target.method) values = result at responds ⊢
  cases responds with
  | refused => exact Or.inl rfl
  | called _ _ found calls => exact Or.inr ⟨_, found, congrArg Coordinator.counts calls.coordinator⟩

theorem fan_task {frames : List Frame} {mapping : Value} {given : List Value} {id : Nat} (new : s.schedule.promises.size ≤ id)
    (origin : (s.fan mapping given).schedule.origin? id = some (.task frames)) :
    ∃ i, i < given.length ∧ id = s.schedule.promises.size + i := by
  have inside := Schedule.origin?_inside origin
  rw [size_fan] at inside
  obtain ⟨i, rfl⟩ := Nat.exists_eq_add_of_le new
  refine ⟨i, Nat.lt_of_le_of_ne (by omega) ?_, rfl⟩
  rintro rfl
  by_cases empty : given = []
  · subst empty
    cases (fan_nil s mapping).1.symm.trans origin
  · cases (fan_join s mapping empty).1.symm.trans origin

end Session

namespace Undertaking

variable {u : Undertaking} {n k task own : Nat} {v : Invocation} {frame : Frame} {values : List Value} {p : Progress}
  {events more : List Event}

/-- Whether a step is taken for an invocation, with these values. -/
def Steps (u : Undertaking) (n : Nat) (frame : Frame) (values : List Value) : Prop :=
  ∃ task own marks rest, u.session.turn = some { task, frames := frame :: rest, values } ∧
    u.workers task = some ⟨own, n :: marks⟩

/-- Whether a step is taken for an invocation in the course of events. -/
def Passes (u : Undertaking) (events : List Event) (n : Nat) (frame : Frame) : Prop :=
  ∃ before after values, events = before ++ .step :: after ∧ (u.run before).Steps n frame values

/-- Whether the next step for an invocation follows what the method of its call has answered. -/
structure Called (u : Undertaking) (events : List Event) (k : Nat) (config given : Value) (answer : List Value) : Prop where
  begun : u.Passes events k (.invoke config given)
  called : ∃ target, target.config = config ∧ u.Passes events k (.call target)
  follows : (u.run events).Steps k (.follow config) answer

/-- Whether an invocation has made a call as a whole, with the call that maps its answer if there is one. -/
inductive Made (u : Undertaking) (events : List Event) : Nat → Value → Value → Prop where
  | plain {k : Nat} {config given : Value} {before after : List Event} {answer : List Value}
      (split : events = before ++ .step :: after) (called : u.Called before k config given answer)
      (unmapped : let store := (u.run before).session.store; store.isMapping (store.field config "resultMapping") = false)
      (done : Done (u.run events).calls k) : Made u events k config given
  | mapped {k : Nat} {config given : Value} {before after : List Event} {answer : List Value} {j : Nat} {v : Invocation}
      (split : events = before ++ .step :: after) (called : u.Called before k config given answer)
      (mapped : let store := (u.run before).session.store; store.isMapping (store.field config "resultMapping") = true)
      (held : (u.run events).calls[j]? = some v) (part : v.parent = some k)
      (made : Made u events j ((u.run before).session.store.field config "resultMapping") (.tuple answer))
      (done : Done (u.run events).calls k) : Made u events k config given

/-- Whether an invocation has mapped the parameter at an index, by the call that the mapping has for it when its
turn comes. -/
structure Mapped (u : Undertaking) (events : List Event) (k : Nat) (mapping : Value) (index : Nat) (value : Value) : Prop where
  done : Done (u.run events).calls k
  item : ∃ before after values, events = before ++ .step :: after ∧ (u.run before).Steps k (.mapItem mapping index value) values ∧
    ∀ call, (u.run before).session.store.mappedCall? mapping index = some call → u.Made events k call (.tuple [value])

theorem run_append (u : Undertaking) (events more : List Event) : u.run (events ++ more) = (u.run events).run more :=
  List.foldl_append

theorem Steps.takes (steps : u.Steps n frame values) : u.Takes n frame :=
  let ⟨task, own, marks, rest, turn, worker⟩ := steps
  ⟨task, own, marks, rest, values, turn, worker⟩

theorem Takes.steps (takes : u.Takes n frame) : ∃ values, u.Steps n frame values :=
  let ⟨task, own, marks, rest, values, turn, worker⟩ := takes
  ⟨values, task, own, marks, rest, turn, worker⟩

theorem Steps.inside (steps : u.Steps n frame values) (proper : u.Proper) : n < u.calls.length := by
  obtain ⟨v, held, _⟩ := proper.takes steps.takes
  exact (List.getElem?_eq_some_iff.mp held).1

theorem happen_turn {marks : List Nat} {rest : List Frame} (turn : u.session.turn = some { task, frames := frame :: rest, values })
    (worker : u.workers task = some ⟨own, n :: marks⟩) : u.happen .step = u.advance task own n marks frame values := by
  simp only [happen, turn, worker]

theorem Passes.later (passes : (u.run events).Passes more n frame) : u.Passes (events ++ more) n frame := by
  obtain ⟨before, after, values, rfl, steps⟩ := passes
  exact ⟨events ++ before, after, values, by simp, by rwa [run_append]⟩

theorem Passes.still (passes : u.Passes events n frame) (more : List Event) : u.Passes (events ++ more) n frame := by
  obtain ⟨before, after, values, rfl, steps⟩ := passes
  exact ⟨before, after ++ more, values, by simp, steps⟩

theorem run_snoc (u : Undertaking) (events : List Event) (e : Event) : u.run (events ++ [e]) = (u.run events).happen e :=
  run_append u events [e]

theorem run_step (u : Undertaking) (before after : List Event) :
    u.run (before ++ .step :: after) = ((u.run before).happen .step).run after :=
  run_append u before (.step :: after)

theorem Called.later {config given : Value} {answer : List Value} (called : (u.run events).Called more k config given answer) :
    u.Called (events ++ more) k config given answer where
  begun := called.begun.later
  called := called.called.imp fun _ => .imp_right Passes.later
  follows := by rw [run_append]; exact called.follows

theorem Made.later {config given : Value} (made : (u.run events).Made more k config given) :
    u.Made (events ++ more) k config given := by
  have whole : u.run (events ++ more) = (u.run events).run more := run_append ..
  induction made with
  | @plain k config given before after answer split called unmapped done =>
    have split : events ++ more = (events ++ before) ++ .step :: after := by simp [split]
    refine .plain split called.later ?_ (whole ▸ done)
    rwa [run_append]
  | @mapped k config given before after answer j v split called mapped held part made done ih =>
    have split : events ++ more = (events ++ before) ++ .step :: after := by simp [split]
    refine .mapped split called.later ?_ (whole ▸ held) part ?_ (whole ▸ done)
    · rwa [run_append]
    · rwa [run_append]

theorem Mapped.later {mapping value : Value} {index : Nat} (mapped : (u.run events).Mapped more k mapping index value) :
    u.Mapped (events ++ more) k mapping index value := by
  obtain ⟨done, before, after, values, rfl, steps, made⟩ := mapped
  refine ⟨by rwa [run_append], events ++ before, after, values, by simp, by rwa [run_append], fun call called => ?_⟩
  rw [run_append] at called
  exact (made call called).later

/-! What an invocation does first. -/

/-- Whether an invocation has yet to begin, with a step that its task takes next. -/
structure Begins (u : Undertaking) (k : Nat) (frame : Frame) : Prop where
  begins : ∃ v own marks, u.calls[k]? = some v ∧ v.progress = .waiting ∧ u.workers v.task = some ⟨own, k :: marks⟩ ∧
    ∀ frames supply, u.session.Stands v.task frames supply → ∃ rest, frames = frame :: rest

theorem Begins.happen (begins : u.Begins k frame) (proper : u.Proper) (e : Event) :
    (u.happen e).Begins k frame ∨ e = .step ∧ u.Takes k frame := by
  obtain ⟨v, own, marks, held, waiting, worker, stands⟩ := begins
  have inside := proper.inside _ _ worker
  -- Its task stays where it is, or has its turn now.
  rcases u.happen_cases e with ⟨task, own', n, marks', frame', rest, values, rfl, turn, working, same⟩ | ⟨same, _⟩
  · by_cases mine : v.task = task
    · subst mine
      obtain ⟨_, same⟩ := stands _ _ (.turn turn)
      cases same
      cases worker.symm.trans working
      exact Or.inr ⟨rfl, _, own, marks, _, values, turn, working⟩
    obtain ⟨m, w, steps, _, left, _, sameMarks, found, task', prepared, _⟩ := proper.turn turn working
    obtain ⟨rfl, rfl⟩ := List.cons.inj sameMarks
    have spares := spares_advance own' (List.replicate steps.length n ++ left) values proper.orderly found task' prepared.due mine
    rw [same]
    refine Or.inl ⟨v, own, marks, spares.held held rfl, waiting, (workers_old mine inside).trans worker, ?_⟩
    intro frames supply stood
    rcases Session.stands_happen proper.orderly .step inside stood with ⟨before, earlier, _⟩ | ⟨_, _, _, _, turn', _⟩
    · exact stands _ _ earlier
    · cases turn.symm.trans turn'
      exact absurd rfl mine
  · rcases Classical.em (∃ frame rest values, e = .step ∧ u.session.turn = some { task := v.task, frames := frame :: rest, values })
      with ⟨frame', rest, values, isStep, turn⟩ | other
    · obtain ⟨_, first⟩ := stands _ _ (.turn turn)
      cases first
      exact Or.inr ⟨isStep, _, own, marks, _, values, turn, worker⟩
    rw [same]
    refine Or.inl ⟨v, own, marks, held, waiting, worker, fun frames supply stood => ?_⟩
    rcases Session.stands_happen proper.orderly e inside stood with ⟨before, earlier, _⟩ | ⟨isStep, frame', rest, values, turn, _⟩
    · exact stands _ _ earlier
    · exact absurd ⟨frame', rest, values, isStep, turn⟩ other

theorem Begins.undone (begins : u.Begins k frame) : ¬ Done u.calls k := by
  obtain ⟨v, _, _, held, waiting, _⟩ := begins
  intro done
  cases done with
  | ended found progress =>
    cases held.symm.trans found
    cases waiting.symm.trans progress
  | finished found progress _ =>
    cases held.symm.trans found
    cases waiting.symm.trans progress

theorem Begins.passes (begins : u.Begins k frame) (proper : u.Proper) (done : Done (u.run events).calls k) :
    u.Passes events k frame := by
  induction events generalizing u with
  | nil => exact absurd done begins.undone
  | cons e rest ih =>
    rcases begins.happen proper e with still | ⟨rfl, takes⟩
    · obtain ⟨before, after, values, rfl, steps⟩ := ih still (proper.happen e) done
      exact ⟨e :: before, after, values, rfl, steps⟩
    · obtain ⟨values, steps⟩ := takes.steps
      exact ⟨[], rest, values, rfl, steps⟩

section
variable {marks : List Nat} {rest : List Frame} (proper : u.Proper)
  (turn : u.session.turn = some { task, frames := frame :: rest, values }) (worker : u.workers task = some ⟨own, n :: marks⟩)
include proper turn worker

theorem begins_go {first : Frame} {next : List Frame} {given : List Value}
    (taken : u.session.takeStep frame values = (u.session, .go (first :: next) given))
    (mark : Progress.mark n (u.session.progress? u.calls.length frame values) first = k)
    (held : (u.advance task own n marks frame values).calls[k]? = some v) (waiting : v.progress = .waiting) (same : v.task = task) :
    (u.happen .step).Begins k first := by
  have orderly := (proper.happen .step).orderly
  rw [happen_turn turn worker] at orderly ⊢
  refine ⟨v, own, next.map (Progress.mark n (u.session.progress? u.calls.length frame values)) ++ marks, held, waiting, ?_, ?_⟩
  · rw [same, advance]
    simp [taken, Move.stand?, mark]
  · intro frames supply stands
    rw [same] at stands
    have after : (u.advance task own n marks frame values).session.turn =
        some { task, frames := first :: (next ++ rest), values := given } := by
      rw [advance]
      dsimp only
      rw [Session.happen_step turn, taken]
      rfl
    exact ⟨next ++ rest, (stands.of_turn orderly after).1⟩

/-- The call for a parameter begins with the next step, where the mapping has one. -/
theorem begins_call {mapping call value : Value} {index : Nat} (item : frame = .mapItem mapping index value)
    (mapped : u.session.store.mappedCall? mapping index = some call) :
    (u.happen .step).Begins n (.invoke call (.tuple [value])) := by
  subst item
  obtain ⟨m, v, steps, _, left, _, sameMarks, held, same, prepared, _⟩ := proper.turn turn worker
  obtain ⟨rfl, rfl⟩ := List.cons.inj sameMarks
  have taken : u.session.takeStep (.mapItem mapping index value) values =
      (u.session, .go [.invoke call (.tuple [value])] []) := by
    simp only [Session.takeStep, mapped]
  have still : u.session.progress? u.calls.length (.mapItem mapping index value) values = none := by
    simp [Session.progress?, taken, Frame.progress?, Move.isCall]
  refine begins_go proper turn worker taken (by rw [still]; rfl) ?_ prepared.due same
  rwa [calls_advance_same still]

/-- A call that the invocation waits for, for its parameters or its answer, begins with the next step. -/
theorem begins_part {inner given : Value} {next : List Frame}
    (taken : u.session.takeStep frame values = (u.session, .go (.invoke inner given :: next) []))
    (came : u.session.progress? u.calls.length frame values = some p)
    (opens : p = .fetching u.calls.length ∨ p = .finishing u.calls.length) :
    (∃ v, (u.happen .step).calls[u.calls.length]? = some v ∧ v.parent = some n) ∧
      (u.happen .step).Begins u.calls.length (.invoke inner given) := by
  have new : (u.advance task own n marks frame values).calls[u.calls.length]? = some { task, parent := some n } := by
    rw [calls_advance came]
    refine (getElem?_advanced_new 0).trans ?_
    rcases opens with rfl | rfl <;> rfl
  have mark : Progress.mark n (u.session.progress? u.calls.length frame values) (.invoke inner given) = u.calls.length := by
    rw [came]
    rcases opens with rfl | rfl <;> rfl
  exact ⟨⟨_, happen_turn turn worker ▸ new, rfl⟩, begins_go proper turn worker taken mark new rfl rfl⟩

/-- Each parameter that a step maps is waited for, and its task has yet to begin. -/
theorem begins_item {mapping : Value} {given : List Value}
    (came : u.session.progress? u.calls.length frame values = some (.mapping (List.range' u.calls.length given.length)))
    (session : (u.session.takeStep frame values).1 = u.session.fan mapping given) {index : Nat} {value : Value}
    (inside : given[index]? = some value) :
    (∃ v, (u.happen .step).calls[u.calls.length + index]? = some v ∧ v.parent = some n) ∧
      (u.happen .step).Begins (u.calls.length + index) (.mapItem mapping index value) := by
  obtain ⟨among, rfl⟩ := List.getElem?_eq_some_iff.mp inside
  obtain ⟨_, new, item⟩ := proper.item_new own n marks turn came (i := index) (by rwa [List.length_range'])
  have old := ((Session.Stands.turn turn).alive proper.orderly).1.1
  rw [happen_turn turn worker]
  refine ⟨⟨_, new, rfl⟩, _, _, [], new, rfl, workers_new came (by rwa [List.length_range']) (by omega), fun frames supply stands => ?_⟩
  obtain ⟨_, origin⟩ := Session.stands_new proper.orderly turn (Nat.le_add_right ..) stands
  rw [session, (u.session.fan_item mapping given among).1] at origin
  cases origin
  exact ⟨[], rfl⟩

end

/-- Where an invocation stands in the end, it has stood from the beginning, or a step has brought it there. -/
theorem Proper.traced (proper : u.Proper) (events : List Event) (held : (u.run events).calls[n]? = some v) :
    v.progress = .waiting ∨ (∃ w, u.calls[n]? = some w ∧ w.progress = v.progress) ∨
      ∃ before after frame values, events = before ++ .step :: after ∧ (u.run before).Steps n frame values ∧
        (u.run before).session.progress? (u.run before).calls.length frame values = some v.progress := by
  induction events generalizing u with
  | nil => exact Or.inr (Or.inl ⟨v, held, rfl⟩)
  | cons e rest ih =>
    rcases ih (proper.happen e) held with waiting | ⟨w, found, same⟩ | ⟨before, after, frame, values, rfl, steps, came⟩
    · exact Or.inl waiting
    · rcases u.happen_cases e with ⟨task, own, m, marks, frame, left, values, rfl, turn, worker, advanced⟩ | ⟨aside, _⟩
      · rw [advanced] at found
        rw [← same]
        by_cases inside : n < u.calls.length
        · by_cases own : n = m
          · subst own
            obtain ⟨p, after, still | came⟩ := self_advance task _ marks frame values (List.getElem?_eq_getElem inside)
            · cases found.symm.trans after
              exact Or.inr (Or.inl ⟨_, List.getElem?_eq_getElem inside, still.symm⟩)
            · cases found.symm.trans after
              exact Or.inr (Or.inr ⟨[], rest, frame, values, rfl, ⟨task, _, marks, left, turn, worker⟩, came⟩)
          · rw [held_advance (List.getElem?_eq_getElem inside) own] at found
            exact Or.inr (Or.inl ⟨w, (List.getElem?_eq_getElem inside).trans found, rfl⟩)
        · exact Or.inl (waiting_new (Nat.le_of_not_lt inside) found)
      · rw [aside] at found
        exact Or.inr (Or.inl ⟨w, found, same⟩)
    · exact Or.inr (Or.inr ⟨e :: before, after, frame, values, rfl, steps, came⟩)

theorem Proper.aims_happen (proper : u.Proper) (held : u.calls[n]? = some v) (begun : 0 < v.progress.rank) (e : Event) :
    (u.happen e).aims n = u.aims n := by
  rcases u.happen_cases e with ⟨task, own, m, marks, frame, left, values, rfl, turn, worker, same⟩ | ⟨same, _⟩
  · rw [same]
    by_cases other : n = m
    · subst other
      obtain ⟨w, found, due, _⟩ := proper.takes ⟨task, own, marks, left, values, turn, worker⟩
      cases held.symm.trans found
      have still : frame.begins? = none := by
        cases frame with
        | invoke config given => rw [show v.progress = .waiting from due] at begun; cases begun
        | materialize config => rw [show v.progress = .waiting from due] at begun; cases begun
        | _ => rfl
      rw [aims_self, still, Option.none_or]
    · exact aims_other other
  · rw [same]

theorem Proper.aims_run (proper : u.Proper) (held : u.calls[n]? = some v) (begun : 0 < v.progress.rank) (events : List Event) :
    (u.run events).aims n = u.aims n := by
  induction events generalizing u v with
  | nil => rfl
  | cons e rest ih =>
    obtain ⟨w, after, _, more⟩ := proper.further held e
    exact (ih (proper.happen e) after (Nat.lt_of_lt_of_le begun more)).trans (proper.aims_happen held begun e)

theorem Steps.brings (steps : u.Steps n frame values) (proper : u.Proper)
    (came : u.session.progress? u.calls.length frame values = some p) :
    ∃ v, (u.happen .step).calls[n]? = some v ∧ v.progress = p ∧ (u.happen .step).aims n = frame.begins?.or (u.aims n) := by
  obtain ⟨v, held, _⟩ := proper.takes steps.takes
  obtain ⟨task, own, marks, rest, turn, worker⟩ := steps
  rw [happen_turn turn worker, calls_advance came]
  exact ⟨_, getElem?_advanced_self held, rfl, aims_self u task own n marks frame values⟩

theorem Steps.aims_after {before : List Event} (steps : (u.run before).Steps n frame values) (proper : u.Proper)
    (came : (u.run before).session.progress? (u.run before).calls.length frame values = some p) (begun : 0 < p.rank)
    (after : List Event) : (u.run (before ++ .step :: after)).aims n = frame.begins?.or ((u.run before).aims n) := by
  obtain ⟨v, held, rfl, aims⟩ := steps.brings (proper.run before) came
  rw [run_step, ((proper.run before).happen .step).aims_run held begun after, aims]

section
variable (proper : u.Proper) (early : ∀ v, u.calls[n]? = some v → v.progress.rank ≤ 2)
include proper early

theorem called_before {reply : Reply} (held : (u.run events).calls[n]? = some v) (called : v.progress = .called reply) :
    ∃ target, (u.run events).aims n = some target.config ∧ u.Passes events n (.call target) := by
  rcases proper.traced events held with waiting | ⟨w, found, same⟩ | ⟨before, after, frame, values, rfl, steps, came⟩
  · cases waiting.symm.trans called
  · have low := early w found
    rw [same, called] at low
    exact absurd low (Nat.not_succ_le_self 2)
  · rw [called] at came
    cases brings came with
    | @calls target =>
      refine ⟨target, ?_, before, after, values, rfl, steps⟩
      rw [steps.aims_after proper came (Nat.zero_lt_succ 2)]
      exact ((proper.run before).ordered steps.takes).aimed rfl _ rfl

theorem follow_before {config : Value} (takes : (u.run events).Takes n (.follow config)) :
    ∃ target, target.config = config ∧ u.Passes events n (.call target) := by
  have proper' := proper.run events
  obtain ⟨⟨v, held, due, _⟩, _, _, aimed, _⟩ := proper'.ordered takes
  have aims := aimed rfl config rfl
  rcases due with ⟨id, called, _⟩ | answered
  · obtain ⟨target, same, passes⟩ := called_before proper early held called
    exact ⟨target, Option.some.inj (same.symm.trans aims), passes⟩
  rcases proper.traced events held with waiting | ⟨w, found, same⟩ | ⟨before, after, frame, values, rfl, steps, came⟩
  · cases waiting.symm.trans answered
  · have low := early w found
    rw [same, answered] at low
    exact absurd low (by decide)
  · rw [answered] at came
    rw [steps.aims_after proper came (by rw [Progress.rank]; decide)] at aims
    cases brings came with
    | acts =>
      obtain ⟨⟨w, found, ⟨left, called⟩, _⟩, _⟩ := (proper.run before).ordered steps.takes
      obtain ⟨target, same, passes⟩ := called_before proper early found called
      exact ⟨target, Option.some.inj (same.symm.trans aims), passes.still _⟩

end

theorem progress?_invoke {s : Session} {config given : Value} (fine : ∀ fault, (s.takeStep (.invoke config given) values).2 ≠ .fail fault)
    (count : Nat) : ∃ p, s.progress? count (.invoke config given) values = some p ∧ p.rank = 1 := by
  refine ⟨if (s.takeStep (.invoke config given) values).2.isCall then .fetching count else .ready, ?_, by split <;> rfl⟩
  unfold Session.progress?
  split
  · contradiction
  next failed _ => exact absurd failed (fine _)
  · rfl

theorem rank_of_done {calls : List Invocation} (done : Done calls k) : ∃ v, calls[k]? = some v ∧ 5 ≤ v.progress.rank := by
  cases done with
  | ended held progress => exact ⟨_, held, by rw [progress]; exact Nat.le_succ 5⟩
  | finished held progress _ => exact ⟨_, held, by rw [progress]; exact Nat.le_refl 5⟩

theorem Proper.followed (proper : u.Proper) (held : u.calls[k]? = some v) (begun : v.progress.rank = 1) (part : k ≠ 0)
    {config : Value} (aims : u.aims k = some config) (done : Done (u.run events).calls k) :
    ∃ before after values w, events = before ++ .step :: after ∧ (u.run before).Steps k (.follow config) values ∧
      (u.run events).calls[k]? = some w ∧
      (u.run before).session.progress? (u.run before).calls.length (.follow config) values = some w.progress := by
  obtain ⟨w, last, high⟩ := rank_of_done done
  rcases proper.traced events last with waiting | ⟨x, found, same⟩ | ⟨before, after, frame, values, rfl, steps, came⟩
  · rw [waiting] at high
    cases high
  · cases held.symm.trans found
    rw [← same, begun] at high
    omega
  have ordered := (proper.run before).ordered steps.takes
  have still := (proper.aims_run held (by omega) before).trans aims
  have own {other : Value} (follow : frame = .follow other) : frame = .follow config := by
    subst follow
    exact Option.some.inj (still.symm.trans (ordered.aimed rfl _ rfl)) ▸ rfl
  suffices frame = .follow config by
    subst this
    exact ⟨before, after, values, w, rfl, steps, last, came⟩
  have brought := brings came
  generalize w.progress = p at high brought
  cases brought with
  | follows => exact own rfl
  | followed => exact own rfl
  | passed =>
    obtain ⟨⟨y, found, due, _⟩, _⟩ := ordered
    obtain ⟨z, found', _, more⟩ := proper.further_run held before
    cases found.symm.trans found'
    rw [show y.progress = .waiting from due, begun] at more
    cases more
  | placed => exact absurd (ordered.state rfl) part
  | _ => simp [Progress.rank] at high

theorem Begins.called {config given : Value} (begins : u.Begins k (.invoke config given)) (proper : u.Proper) (part : k ≠ 0)
    (done : Done (u.run events).calls k) :
    ∃ before after answer w, events = before ++ .step :: after ∧ u.Called before k config given answer ∧
      (u.run events).calls[k]? = some w ∧
      (u.run before).session.progress? (u.run before).calls.length (.follow config) answer = some w.progress := by
  obtain ⟨before, after, values, rfl, steps⟩ := begins.passes proper done
  have opened := proper.run before
  rw [run_step] at done ⊢
  -- The first step has not failed, and from then on the invocation is for this configuration.
  have fine : ∀ fault, ((u.run before).session.takeStep (.invoke config given) values).2 ≠ .fail fault := by
    intro fault fails
    obtain ⟨task, own, marks, rest, turn, worker⟩ := steps
    exact ((opened.fails turn worker fails).run (opened.happen .step) after).unfinished done
  obtain ⟨p, came, first⟩ := progress?_invoke fine (u.run before).calls.length
  obtain ⟨v, held, rfl, aims⟩ := steps.brings opened came
  have early : ∀ w, ((u.run before).happen .step).calls[k]? = some w → w.progress.rank ≤ 2 := by
    intro w found
    cases held.symm.trans found
    omega
  obtain ⟨middle, left, answer, w, rfl, follows, last, ended⟩ := (opened.happen .step).followed held first part aims done
  obtain ⟨target, aimed, called⟩ := follow_before (opened.happen .step) early follows.takes
  refine ⟨before ++ .step :: middle, left, answer, w, by simp, ⟨?_, ⟨target, aimed, ?_⟩, ?_⟩, last, ?_⟩
  · exact ⟨before, middle, values, rfl, steps⟩
  · rw [← run_snoc] at called
    rw [List.append_cons]
    exact called.later
  · rwa [run_step]
  · rwa [run_step]

theorem takeStep_mapped {s : Session} {config : Value} (count : Nat) (values : List Value)
    (mapped : s.store.isMapping (s.store.field config "resultMapping") = true) :
    s.takeStep (.follow config) values = (s, .go [.invoke (s.store.field config "resultMapping") (.tuple values)] []) ∧
      s.progress? count (.follow config) values = some (.finishing count) := by
  have taken : s.takeStep (.follow config) values =
      (s, .go [.invoke (s.store.field config "resultMapping") (.tuple values)] []) := by
    simp only [Session.takeStep, Session.followCall, mapped, if_true]
  exact ⟨taken, by simp [Session.progress?, taken, Frame.progress?, Move.isCall]⟩

theorem Begins.made {config given : Value} (begins : u.Begins k (.invoke config given)) (proper : u.Proper) (part : k ≠ 0)
    (done : Done (u.run events).calls k) : u.Made events k config given := by
  have ended := done
  generalize reached : (u.run events).calls = calls at done
  -- What maps the answer has ended well before, if anything does.
  induction done generalizing u events config given with
  | @ended k v found progress =>
    obtain ⟨before, after, answer, w, rfl, called, last, came⟩ := begins.called proper part ended
    rw [← reached] at found
    cases last.symm.trans found
    cases mapped : (u.run before).session.store.isMapping ((u.run before).session.store.field config "resultMapping") with
    | false => exact .plain rfl called mapped ended
    | true => cases (came.symm.trans (takeStep_mapped _ _ mapped).2).symm.trans (congrArg some progress)
  | @finished k result v found progress whole ih =>
    obtain ⟨before, after, answer, w, rfl, called, last, came⟩ := begins.called proper part ended
    have opened := proper.run before
    rw [← reached] at found
    cases last.symm.trans found
    rw [progress] at came
    cases mapped : (u.run before).session.store.isMapping ((u.run before).session.store.field config "resultMapping") with
    | false =>
      have plain : (u.run before).session.takeStep (.follow config) answer = ((u.run before).session, .go [] answer) := by
        simp only [Session.takeStep, Session.followCall, mapped, Bool.false_eq_true, if_false]
      simp [Session.progress?, plain, Frame.progress?, Move.isCall] at came
    | true =>
      obtain ⟨taken, finishing⟩ := takeStep_mapped (u.run before).calls.length answer mapped
      cases came.symm.trans finishing
      have old := called.follows.inside opened
      obtain ⟨task, own, marks, rest, turn, worker⟩ := called.follows
      obtain ⟨⟨x, new, below⟩, first⟩ := begins_part opened turn worker taken finishing (Or.inr rfl)
      obtain ⟨y, there, parent, _⟩ := (opened.happen .step).further_run new after
      rw [run_step] at reached
      rw [← reached] at whole
      have made := ih first (opened.happen .step) (by omega) whole reached
      rw [← run_snoc] at made
      refine .mapped rfl called mapped (by rw [run_step]; exact there) (parent.trans below) ?_ ended
      rw [List.append_cons]
      exact made.later

/-- A parameter that has been mapped has been by the call that there is for it. -/
theorem Begins.mapped {mapping value : Value} {index : Nat} (begins : u.Begins k (.mapItem mapping index value)) (proper : u.Proper)
    (part : k ≠ 0) (done : Done (u.run events).calls k) : u.Mapped events k mapping index value := by
  refine ⟨done, ?_⟩
  obtain ⟨before, after, values, rfl, steps⟩ := begins.passes proper done
  refine ⟨before, after, values, rfl, steps, fun call called => ?_⟩
  obtain ⟨task, own, marks, rest, turn, worker⟩ := steps
  have begins := begins_call (proper.run before) turn worker rfl called
  rw [← run_snoc] at begins
  rw [List.append_cons, run_append] at done
  have made := (begins.made (proper.run _) part done).later
  rwa [← List.append_cons] at made

theorem takeStep_derived {s : Session} {count : Nat} {config inner : Value} (begins : frame.begins? = some config)
    (came : s.progress? count frame values = some p)
    (source : s.store.source (s.store.field config "parameters") = .derived inner) :
    ∃ next, s.takeStep frame values = (s, .go [.invoke inner .null, next] []) ∧ p = .fetching count := by
  have fetching {next : Frame} (taken : s.takeStep frame values = (s, .go [.invoke inner .null, next] [])) : p = .fetching count := by
    refine Option.some.inj (came.symm.trans ?_)
    cases frame with
    | invoke config given => simp [Session.progress?, taken, Frame.progress?, Move.isCall]
    | materialize config => simp [Session.progress?, taken, Frame.progress?, Move.isCall]
    | _ => cases begins
  cases frame with
  | invoke config given =>
    cases begins
    cases aimed : s.coordinator.target s.store config with
    | error fault =>
      have failed : (s.takeStep (.invoke config given) values).2 = .fail fault := by
        simp only [Session.takeStep, Session.invoke, aimed]
      simp [Session.progress?, failed] at came
    | ok target =>
      have taken : s.takeStep (.invoke config given) values = (s, .go [.invoke inner .null, .map target] []) := by
        simp only [Session.takeStep, Session.invoke, aimed, Session.fetch, source]
      exact ⟨_, taken, fetching taken⟩
  | materialize config =>
    cases begins
    have taken : s.takeStep (.materialize config) values = (s, .go [.invoke inner .null, .arrange config] []) := by
      simp only [Session.takeStep, Session.materialize, Session.fetch, source]
    exact ⟨_, taken, fetching taken⟩
  | _ => cases begins

/-- A step that maps parameters waits for an invocation for each of them, if there is a mapping. -/
theorem progress?_mapEach {s : Session} {count : Nat} {items : List Nat} {given rest : List Value} {next : List Frame}
    {mapping first : Value} (maps : frame.gathers = true ∨ ∃ config, frame = .materialize config)
    (came : s.progress? count frame values = some (.mapping items)) (mapped : s.store.items? mapping = some (first :: rest))
    (taken : s.takeStep frame values = s.mapEach mapping given next) :
    items = List.range' count given.length ∧ (s.takeStep frame values).1 = s.fan mapping given := by
  rw [Session.mapEach_mapped mapped] at taken
  have reached : s.progress? count frame values = _ := progress_maps maps (congrArg Prod.snd taken) rfl nofun
  rw [Session.items, Nat.add_sub_cancel_left] at reached
  cases came.symm.trans reached
  exact ⟨rfl, congrArg Prod.fst taken⟩

/-- What a step maps, each of it by an invocation with a task of its own, if the configuration has a mapping. -/
theorem maps_progress? {s : Session} {count : Nat} {items : List Nat} (came : s.progress? count frame values = some (.mapping items)) :
    ∃ given, s.Maps values frame given ∧ ∀ config first rest, frame.aim? = some config →
      s.store.items? (s.store.field config "parameterMapping") = some (first :: rest) → given ≠ [] →
        items = List.range' count given.length ∧
          (s.takeStep frame values).1 = s.fan (s.store.field config "parameterMapping") given := by
  have maps : frame.gathers = true ∨ ∃ config, frame = .materialize config := by
    cases brings came with
    | maps maps => exact maps
  rcases maps with gathers | ⟨config, rfl⟩
  · cases frame with
    | map target =>
      refine ⟨values, .handed, fun config first rest aim mapped _ => ?_⟩
      cases aim
      exact progress?_mapEach (.inl rfl) came mapped rfl
    | arrange config =>
      cases list : values.head?.bind s.listItems? with
      | none => exact ⟨[], .whole list, fun _ _ _ _ _ other => absurd rfl other⟩
      | some given =>
        refine ⟨given, .derived list, fun config' first rest aim mapped _ => ?_⟩
        cases aim
        have taken : s.takeStep (.arrange config) values =
            s.mapEach (s.store.field config "parameterMapping") given [.place config false] := by
          simp only [Session.takeStep, Session.arrange, list, mapped]
        exact progress?_mapEach (.inl rfl) came mapped taken
    | _ => cases gathers
  · cases source : s.store.source (s.store.field config "parameters") with
    | literal listed =>
      cases resolved : s.store.resolveItems s.coordinator.context listed with
      | error fault =>
        have failed : (s.takeStep (.materialize config) values).2 = .fail fault := by
          simp only [Session.takeStep, Session.materialize, Session.fetch, source, resolved]
        simp [Session.progress?, failed] at came
      | ok given =>
        refine ⟨given, .literal source resolved, fun config' first rest aim mapped _ => ?_⟩
        cases aim
        have taken : s.takeStep (.materialize config) values =
            s.mapEach (s.store.field config "parameterMapping") given [.place config false] := by
          simp only [Session.takeStep, Session.materialize, Session.fetch, source, resolved]
        exact progress?_mapEach (.inr ⟨_, rfl⟩) came mapped taken
    | derived inner =>
      have fetched : (s.takeStep (.materialize config) values).2 = .go [.invoke inner .null, .arrange config] [] := by
        simp only [Session.takeStep, Session.materialize, Session.fetch, source]
      simp [Session.progress?, fetched, Frame.progress?, Move.isCall] at came
    | absent => exact ⟨[], .absent source, fun _ _ _ _ _ other => absurd rfl other⟩

/-- Whether the parameters of an invocation have been given for a configuration: where another call gives them, that
has been made. -/
def Fetched (u : Undertaking) (events : List Event) (n : Nat) (config : Value) : Prop :=
  ∃ before after opening values, events = before ++ .step :: after ∧ (u.run before).Steps n opening values ∧
    opening.begins? = some config ∧
    let s := (u.run before).session
    ∀ inner, s.store.source (s.store.field config "parameters") = .derived inner →
      ∃ k v, (u.run events).calls[k]? = some v ∧ v.parent = some n ∧ u.Made events k inner .null

/-- Whether the parameters of an invocation have been mapped for a configuration, each of them by what its mapping
has at the same index. -/
def AllMapped (u : Undertaking) (events : List Event) (n : Nat) (config : Value) : Prop :=
  ∃ before after step values given, events = before ++ .step :: after ∧ (u.run before).Steps n step values ∧
    step.aim? = some config ∧ (u.run before).session.Maps values step given ∧
    let s := (u.run before).session
    let mapping := s.store.field config "parameterMapping"
    ∀ first rest, s.store.items? mapping = some (first :: rest) → ∀ index value, given[index]? = some value →
      ∃ k v, (u.run events).calls[k]? = some v ∧ v.parent = some n ∧ u.Mapped events k mapping index value

/-- What has been done for an invocation before a step is taken for it. -/
structure Preceded (u : Undertaking) (events : List Event) (n : Nat) (frame : Frame) : Prop where
  fetched : frame.gathers = true → ∀ config, frame.aim? = some config → u.Fetched events n config
  mapped : frame.concludes = true → ∀ config, frame.aim? = some config → u.AllMapped events n config
  called : ∀ config, frame = .follow config → ∃ target, target.config = config ∧ u.Passes events n (.call target)

/-- Whether nothing has been done yet. -/
def Fresh (u : Undertaking) : Prop :=
  ∀ (n : Nat) (v : Invocation), u.calls[n]? = some v → v.progress = .waiting

theorem fresh_start (session : Session) (task : Nat) : (start session task).Fresh := by
  intro n v held
  cases n with
  | zero => cases held; rfl
  | succ n => cases held

namespace Fresh

variable (fresh : u.Fresh) (proper : u.Proper)
include fresh proper

theorem traced (held : (u.run events).calls[n]? = some v) (begun : v.progress ≠ .waiting) :
    ∃ before after frame values, events = before ++ .step :: after ∧ (u.run before).Steps n frame values ∧
      (u.run before).session.progress? (u.run before).calls.length frame values = some v.progress := by
  rcases proper.traced events held with waiting | ⟨w, found, same⟩ | step
  · exact absurd waiting begun
  · exact absurd (same.symm.trans (fresh n w found)) begun
  · exact step

theorem mapped (takes : (u.run events).Takes n frame) (concludes : frame.concludes = true) {config : Value}
    (aim : frame.aim? = some config) : u.AllMapped events n config := by
  have later : frame.starts = false := by cases frame <;> first | rfl | cases concludes
  obtain ⟨⟨v, held, due, _⟩, _, _, aimed, _⟩ := (proper.run events).ordered takes
  have aims := aimed later config aim
  obtain ⟨items, progress, all⟩ : ∃ items, v.progress = .mapping items ∧ ∀ i ∈ items, Done (u.run events).calls i := by
    cases frame with
    | call target => exact due
    | place config whole => exact due
    | _ => cases concludes
  obtain ⟨before, after, step, values, rfl, steps, came⟩ := fresh.traced proper held (by simp [progress])
  rw [progress] at came
  obtain ⟨given, maps, whole⟩ := maps_progress? came
  have opened := proper.run before
  rw [steps.aims_after proper came Nat.zero_lt_two] at aims
  have same : step.aim? = some config := by
    cases maps with
    | handed => exact ((opened.ordered steps.takes).aimed rfl _ rfl).symm.trans aims
    | derived _ => exact ((opened.ordered steps.takes).aimed rfl _ rfl).symm.trans aims
    | whole _ => exact ((opened.ordered steps.takes).aimed rfl _ rfl).symm.trans aims
    | literal _ _ => exact aims
    | absent _ => exact aims
  refine ⟨before, after, step, values, given, rfl, steps, same, maps, ?_⟩
  intro s mapping first rest mapped index value inside
  obtain ⟨rfl, session⟩ := whole config first rest same mapped (by rintro rfl; cases inside)
  have old := steps.inside opened
  obtain ⟨task, own, marks, left, turn, worker⟩ := steps
  obtain ⟨⟨x, new, parent⟩, begins⟩ := begins_item opened turn worker came session inside
  obtain ⟨y, last, kept, _⟩ := (opened.happen .step).further_run new after
  have among : (u.run before).calls.length + index ∈ List.range' (u.run before).calls.length given.length :=
    List.mem_range'_1.mpr ⟨Nat.le_add_right .., Nat.add_lt_add_left (List.getElem?_eq_some_iff.mp inside).1 _⟩
  have done := all _ among
  rw [run_step] at done ⊢
  have made := begins.mapped (opened.happen .step) (by omega) done
  rw [← run_snoc] at made
  refine ⟨_, y, last, kept.trans parent, ?_⟩
  have whole := made.later
  rwa [List.append_assoc, List.singleton_append] at whole

theorem fetched (takes : (u.run events).Takes n frame) (gathers : frame.gathers = true) {config : Value}
    (aim : frame.aim? = some config) : u.Fetched events n config := by
  have later : frame.starts = false := by cases frame <;> first | rfl | cases gathers
  obtain ⟨⟨v, held, due, _⟩, _, _, aimed, _⟩ := (proper.run events).ordered takes
  have aims := aimed later config aim
  have reached : v.progress = .ready ∨ ∃ inner, v.progress = .fetching inner ∧ Done (u.run events).calls inner := by
    cases frame with
    | map target => exact due
    | arrange config => exact due
    | _ => cases gathers
  have begun : 0 < v.progress.rank := by rcases reached with same | ⟨_, same, _⟩ <;> rw [same] <;> exact Nat.zero_lt_one
  obtain ⟨before, after, opening, values, rfl, steps, came⟩ := fresh.traced proper held fun same => by simp [same, Progress.rank] at begun
  have opened := proper.run before
  rw [steps.aims_after proper came begun] at aims
  have begins : opening.begins? = some config := by
    have brought := brings came
    generalize v.progress = p at reached brought
    cases brought with
    | readies => exact aims
    | fetches begins => rw [begins] at aims ⊢; exact aims
    | _ => simp at reached
  refine ⟨before, after, opening, values, rfl, steps, begins, ?_⟩
  intro s inner source
  have old := steps.inside opened
  obtain ⟨next, taken, progress⟩ := takeStep_derived begins came source
  obtain ⟨task, own, marks, left, turn, worker⟩ := steps
  obtain ⟨⟨x, new, below⟩, first⟩ := begins_part opened turn worker taken came (Or.inl progress)
  have done : Done (u.run (before ++ .step :: after)).calls (u.run before).calls.length := by
    rcases reached with same | ⟨inner', same, done⟩
    · cases same.symm.trans progress
    · cases same.symm.trans progress
      exact done
  obtain ⟨y, last, parent, _⟩ := (opened.happen .step).further_run new after
  rw [run_step] at done ⊢
  have made := first.made (opened.happen .step) (by omega) done
  rw [← run_snoc] at made
  have whole := made.later
  rw [List.append_assoc, List.singleton_append] at whole
  exact ⟨_, y, last, parent.trans below, whole⟩

theorem preceded (takes : (u.run events).Takes n frame) : u.Preceded events n frame where
  fetched gathers _ aim := fetched fresh proper takes gathers aim
  mapped concludes _ aim := mapped fresh proper takes concludes aim
  called config same := by
    subst same
    refine follow_before proper (fun v held => ?_) takes
    rw [fresh n v held]
    exact Nat.zero_le 2

end Fresh

/-- What a step for an invocation does besides: nothing that its configuration does not ask for. -/
structure Alone (u : Undertaking) (frame : Frame) : Prop where
  /-- A method is called once by the step that is there for it. -/
  counted : ∀ target, frame = .call target → (u.happen .step).session.coordinator.counts = u.session.coordinator.counts ∨
    ∃ m, (u.session.coordinator.service target.service).method? (.text target.method) = some m ∧
      (u.happen .step).session.coordinator.counts = u.session.coordinator.counts.modify m.counter (· + 1)
  uncounted : (∀ target, frame ≠ .call target) →
    (u.happen .step).session.coordinator.counts = u.session.coordinator.counts
  /-- Each task that is started is for one invocation, unless a service has started it. -/
  staffed : (∀ target, frame ≠ .call target) → (∀ action request, frame ≠ .act action request) →
    ∀ id frames supply, u.session.schedule.promises.size ≤ id → (u.happen .step).session.Stands id frames supply →
      ∃ k, (u.happen .step).workers id = some ⟨k, [k]⟩

theorem fans_task {s : Session} (fans : s.Fans frame values) (maps : frame.gathers = true ∨ ∃ config, frame = .materialize config)
    (count : Nat) {frames : List Frame} {id : Nat} (new : s.schedule.promises.size ≤ id)
    (origin : (s.takeStep frame values).1.schedule.origin? id = some (.task frames)) :
    ∃ items i, s.progress? count frame values = some (.mapping items) ∧ i < items.length ∧ id = s.schedule.promises.size + i := by
  cases fans with
  | plain taken =>
    rw [taken] at origin
    exact absurd (Schedule.origin?_inside origin) (Nat.not_lt_of_le new)
  | fan taken =>
    rw [taken] at origin
    obtain ⟨i, among, rfl⟩ := Session.fan_task new origin
    refine ⟨_, i, progress_maps maps (congrArg Prod.snd taken) rfl nofun, ?_, rfl⟩
    rwa [Session.items, Nat.add_sub_cancel_left, List.length_range']

/-- A task that a step for an invocation starts maps a parameter, unless a service starts it. -/
theorem Due.own_task (due : u.Due p frame) (call : ∀ target, frame ≠ .call target) (act : ∀ action request, frame ≠ .act action request)
    {s : Session} (count : Nat) {frames : List Frame} {id : Nat} (new : s.schedule.promises.size ≤ id)
    (origin : (s.takeStep frame values).1.schedule.origin? id = some (.task frames)) :
    ∃ items i, s.progress? count frame values = some (.mapping items) ∧ i < items.length ∧ id = s.schedule.promises.size + i := by
  have idle (same : (s.takeStep frame values).1.schedule = s.schedule) : False := by
    rw [same] at origin
    exact absurd (Schedule.origin?_inside origin) (Nat.not_lt_of_le new)
  cases frame with
  | invoke config given => exact (idle (by rw [Session.takeStep, Session.fst_invoke])).elim
  | map target => exact fans_task (Session.fans_gathers rfl values) (Or.inl rfl) count new origin
  | arrange config => exact fans_task (Session.fans_gathers rfl values) (Or.inl rfl) count new origin
  | materialize config =>
    rcases s.fetch_cases config [] [.arrange config] _ with ⟨fault, same⟩ | ⟨inner, _, same⟩ | ⟨params, same⟩
    · exact (idle (congrArg (·.1.schedule) same)).elim
    · exact (idle (congrArg (·.1.schedule) same)).elim
    · have fans : s.Fans (.materialize config) values := Session.fans_mapEach same rfl rfl fun _ => rfl
      exact fans_task fans (Or.inr ⟨config, rfl⟩) count new origin
  | mapItem mapping index value =>
    refine (idle ?_).elim
    rw [Session.takeStep]
    split <;> rfl
  | follow config =>
    refine (idle ?_).elim
    rw [Session.takeStep, Session.followCall]
    split <;> rfl
  | place config whole => exact (idle (s.schedule_place config whole values)).elim
  | pause => exact (idle rfl).elim
  | call target => exact absurd rfl (call target)
  | act action request => exact absurd rfl (act action request)
  | _ => exact False.elim due

theorem Proper.alone (proper : u.Proper) (takes : u.Takes n frame) : u.Alone frame := by
  obtain ⟨v, held, due, _⟩ := proper.takes takes
  obtain ⟨task, own, marks, rest, values, turn, worker⟩ := takes
  have coordinator : (u.happen .step).session.coordinator = (u.session.takeStep frame values).1.coordinator := by
    rw [session_happen, Session.happen_step turn, Session.services_move]
  constructor
  case counted =>
    rintro target rfl
    rw [coordinator]
    exact u.session.counts_call target values
  case uncounted =>
    intro other
    rw [coordinator]
    exact u.session.counts_takeStep values other
  case staffed =>
    intro call act id frames supply new stands
    rw [session_happen] at stands
    obtain ⟨_, origin⟩ := Session.stands_new proper.orderly turn new stands
    have there := ((Session.Stands.turn turn).alive proper.orderly).1.1
    obtain ⟨items, i, came, among, rfl⟩ := due.own_task call act u.calls.length new origin
    rw [happen_turn turn worker]
    exact ⟨_, workers_new came among (by omega)⟩

end Undertaking

namespace Session

/-- The work on a configuration that was accepted is done in its order, however services answer and in whatever
order they do: every step that is taken for it is one for a call, or for a parameter that is mapped, whose parts
before it have ended well; the method of each call is called once at most. The call that gives the parameters has
been made before they are mapped, and each call that maps one of them before the method is called. A call that
fails ends what it is a part of: nothing more is ever done for either, no situation is handed over, and only items
of a mapping go on that stand beside the failure. -/
theorem parts_in_order {s : Session} (reachable : s.Reachable) (entry : Entry) (config : Value) (id : Nat)
    (accepted : (s.coordinate entry config).2 = .ok id) (events : List Event) :
    let u := (Undertaking.start (s.coordinate entry config).1 id).run events
    u.session = (s.coordinate entry config).1.run events ∧
      (∀ task worker frame rest values, u.workers task = some worker →
        u.session.turn = some { task, frames := frame :: rest, values } → ∃ n, u.Takes n frame) ∧
      (∀ n frame, u.Takes n frame → u.Ordered n frame) ∧
      (∀ n frame, u.Takes n frame →
        u.Alone frame ∧ (Undertaking.start (s.coordinate entry config).1 id).Preceded events n frame) ∧
      ∀ n, u.Failed n → ∀ more, (u.run more).Contains n := by
  intro u
  have begun := proper_start reachable accepted
  have proper : u.Proper := begun.run events
  have fresh := Undertaking.fresh_start (s.coordinate entry config).1 id
  refine ⟨Undertaking.session_run _ events, ?_, fun n frame => proper.ordered,
    fun n frame takes => ⟨proper.alone takes, fresh.preceded begun takes⟩, fun n failed more => (proper.run more).contains (failed.run proper more)⟩
  intro task worker frame rest values works turn
  obtain ⟨own, marks⟩ := worker
  obtain ⟨n, _, steps, _, left, _, rfl, _⟩ := proper.turn turn works
  exact ⟨n, task, own, _, rest, values, turn, works⟩

/-- A situation with two parameters, each of which is mapped by a service that answers later. What comes out
of the second one is noted then. -/
private def splitting : Session where
  store := { cells := #[
    .map [(.text "situation", .text "S"), (.text "parameters", .tuple [.int 1, .int 2]),
      (.text "parameterMapping", .tuple [.ref 1, .ref 2])],
    .map [(.text "name", .text "slow")],
    .map [(.text "name", .text "slow"), (.text "resultMapping", .ref 3)],
    .map [(.text "name", .text "note")]] }
  coordinator :=
    { services := #[{ nature := { kind := "Service" }, provision := .listed, execution := .wrapped,
                      methods := [{ name := .text "slow", label := "slow", script := { action := .defer } },
                        { name := .text "note", label := "note", script := { action := .echo } }] }]
      registry := [("", 0)] }

/-- Both services are called, and the first one fails. -/
private def firstFails : List Event :=
  List.replicate 12 .step ++ [.answer 0 (.error (.raised .runtime "rejected"))]

/-- The second one answers all the same. -/
private def secondAnswers : List Event :=
  List.replicate 3 .step ++ .answer 1 (.ok [.int 7]) :: List.replicate 2 .step

/-- Both services answer, and what comes out of the second one is noted, before the situation is handed over. -/
private def bothAnswer : List Event :=
  List.replicate 12 .step ++ [.answer 0 (.ok [.int 5]), .answer 1 (.ok [.int 7])] ++ List.replicate 13 .step

theorem splitting_in_order : splitting.Reachable ∧ (splitting.coordinate .state (.ref 0)).2 = .ok 0 ∧
    let start := Undertaking.start (splitting.coordinate .state (.ref 0)).1 0
    let u := start.run firstFails
    u.Failed 1 ∧ (∀ more, (u.run more).Contains 1) ∧
      (∃ config given, (u.run secondAnswers).Takes 3 (.invoke config given) ∧
        (u.run secondAnswers).Ordered 3 (.invoke config given)) ∧
      (start.run bothAnswer).Takes 0 (.place (.ref 0) false) ∧ start.AllMapped bothAnswer 0 (.ref 0) := by
  have reachable : splitting.Reachable := ⟨splitting, [], ⟨rfl, rfl, rfl, rfl, rfl⟩, rfl⟩
  have accepted : (splitting.coordinate .state (.ref 0)).2 = .ok 0 := rfl
  have failed : ((Undertaking.start (splitting.coordinate .state (.ref 0)).1 0).run firstFails).Failed 1 := .method rfl rfl rfl
  obtain ⟨_, _, _, _, contained⟩ := parts_in_order reachable .state (.ref 0) 0 accepted firstFails
  obtain ⟨_, _, ordered, _⟩ := parts_in_order reachable .state (.ref 0) 0 accepted (firstFails ++ secondAnswers)
  obtain ⟨_, _, _, preceded, _⟩ := parts_in_order reachable .state (.ref 0) 0 accepted bothAnswer
  have takes : ((Undertaking.start (splitting.coordinate .state (.ref 0)).1 0).run (firstFails ++ secondAnswers)).Takes 3
      (.invoke (.ref 3) (.tuple [.int 7])) := ⟨2, 2, [], [], [], rfl, rfl⟩
  have stepped := ordered 3 _ takes
  rw [Undertaking.run, List.foldl_append] at takes stepped
  have places : ((Undertaking.start (splitting.coordinate .state (.ref 0)).1 0).run bothAnswer).Takes 0 (.place (.ref 0) false) :=
    ⟨0, 0, [], [], [.int 5, .int 7], rfl, rfl⟩
  exact ⟨reachable, accepted, failed, contained 1 failed, ⟨_, _, takes, stepped⟩, places,
    (preceded 0 _ places).2.mapped rfl _ rfl⟩

end Session
end Interaction
