import Interaction.Proofs.Exposing
import Interaction.Proofs.Input

/-! What becomes of a call of a method. A service that hands over the ends of its methods answers with a
promise, and the promise ends as the method does: with what it answered during the call, with what it answers
in its own task later, or with what someone outside answers for it. Only the end of an iteration is no end that
a promise takes. -/

namespace Interaction.Session

variable {s t : Session} {task id index turns : Nat} {action : Action} {request : Request} {answer : Except Fault Value}

/-- Whether a task whose turn it is has nothing before it but an action. -/
def Acts (s : Session) (task : Nat) (action : Action) (request : Request) : Prop :=
  ∃ values, s.turn = some { task, frames := [.act action request], values }

/-- Whether a task that has got an answer ends with it, or has ended with it. -/
inductive Acted (s : Session) (task : Nat) : Except Fault Value → Prop where
  | turn {v : Value} (turn : s.turn = some { task, frames := [], values := [v] }) : Acted s task (.ok v)
  | ended {answer : Except Fault Value} (ended : s.schedule.outcome? task = some (lateOutcome answer)) : Acted s task answer

theorem Acts.idle (acts : s.Acts task action request) (orderly : s.Orderly s.running) : ¬ s.Acted task answer := by
  obtain ⟨values, turn⟩ := acts
  have unsettled := ((Stands.turn turn).alive orderly).1.2
  intro acted
  cases acted with
  | turn other => cases turn.symm.trans other
  | ended ended => cases unsettled.symm.trans ended

theorem act_step (orderly : s.Orderly s.running) (acts : s.Acts task action request) :
    (s.happen .step).Acted task (s.act action request).2 := by
  obtain ⟨values, turn⟩ := acts
  have open_ := ((Stands.turn turn).alive orderly).1
  have extended := (Grows.takeStep s (.act action request) values orderly.tracked).extends
  have stepped := happen_step turn
  rw [takeStep_act] at stepped extended
  rw [stepped]
  cases (s.act action request).2 with
  | ok v => exact .turn rfl
  | error fault =>
    refine .ended (Schedule.outcome?_settle_self ⟨?_, ?_⟩ _)
    · exact Nat.lt_of_lt_of_le open_.1 extended.schedule.size
    · exact (extended.schedule.outcome open_.1).trans open_.2

theorem Acted.happen (acted : s.Acted task answer) (orderly : s.Orderly s.running) (e : Event) :
    (s.happen e).Acted task answer := by
  cases acted with
  | ended ended => exact .ended (((orderly.enlarges e).settled (by simp [ended])).trans ended)
  | @turn v turn =>
    have alive := (Stands.turn turn).alive orderly
    by_cases outside : e = .step
    · subst outside
      have stepped : s.happen .step = s.finish task (.ok [v]) := by simp [Session.happen, step, turn]
      rw [stepped]
      exact .ended (Schedule.outcome?_settle_self alive.1 _)
    · cases (stands_outside orderly outside alive.1.1).mpr (.turn turn) with
      | turn same => exact .turn same

theorem Acted.run (acted : s.Acted task answer) (orderly : s.Orderly s.running) (events : List Event) :
    (s.run events).Acted task answer :=
  (orderly.along (P := (Acted · task answer)) events acted fun _ e orderly acted => acted.happen orderly e).2

theorem yield_step (orderly : s.Orderly s.running) {rest : List Frame} {values : List Value}
    (turn : s.turn = some { task, frames := .pause :: rest, values }) : (s.happen .step).Stands task rest (.values []) := by
  obtain ⟨_, frames, held⟩ := (Stands.turn turn).alive orderly
  rw [happen_step turn]
  refine .queued ?_ ?_
  · exact List.mem_append_right _ (List.mem_singleton_self _)
  · have there : (s.takeStep .pause values).1.schedule.origin? task = some (.task frames) := held
    exact (Schedule.origin?_suspend ..).trans (by simp [there])

theorem waits_happen (orderly : s.Orderly s.running) {values : List Value}
    (stands : s.Stands task (lateSteps turns action request) (.values values)) (e : Event) :
    (∃ turns values, (s.happen e).Stands task (lateSteps turns action request) (.values values)) ∨
      e = .step ∧ s.Acts task action request := by
  rcases stands_happen_on orderly e stands with ⟨after, stands, same | ⟨_, _, waits, _⟩⟩ | ⟨_, _, waits, _⟩ | ⟨rfl, running⟩
  · exact Or.inl ⟨turns, values, same ▸ stands⟩
  · cases waits
  · cases waits
  · obtain ⟨⟨own, frames, given⟩, turn, rfl⟩ := Option.map_eq_some_iff.mp running
    obtain ⟨rfl, -⟩ := stands.of_turn orderly turn
    cases turns with
    | zero => exact Or.inr ⟨rfl, given, turn⟩
    | succ turns => exact Or.inl ⟨turns, [], yield_step orderly turn⟩

theorem waits_run (orderly : s.Orderly s.running) {values : List Value}
    (stands : s.Stands task (lateSteps turns action request) (.values values)) (events : List Event) :
    (∃ turns values, (s.run events).Stands task (lateSteps turns action request) (.values values)) ∨
      ∃ before after, events = before ++ .step :: after ∧ (s.run before).Acts task action request ∧
        (s.run events).Acted task ((s.run before).act action request).2 := by
  induction events generalizing s turns values with
  | nil => exact Or.inl ⟨turns, values, stands⟩
  | cons e rest ih =>
    rcases waits_happen orderly stands e with ⟨turns, values, stands⟩ | ⟨rfl, acts⟩
    · rcases ih (orderly.happen e) stands with waits | ⟨before, after, rfl, acts, acted⟩
      · exact Or.inl waits
      · exact Or.inr ⟨e :: before, after, rfl, acts, acted⟩
    · exact Or.inr ⟨[], rest, rfl, acts, (act_step orderly acts).run (orderly.happen .step) rest⟩

/-- Whether the promise of a task ends as an action does that the task carries out once. -/
structure DeliversLater (s : Session) (task : Nat) (action : Action) (request : Request) : Prop where
  answered : ∀ events outcome, (s.run events).schedule.outcome? task = some outcome →
    ∃ before after, events = before ++ .step :: after ∧ (s.run before).Acts task action request ∧
      outcome = lateOutcome ((s.run before).act action request).2
  once : ∀ before between, (s.run before).Acts task action request →
    ¬ (s.run (before ++ .step :: between)).Acts task action request
  /-- Once nothing is left to do, the promise has ended. -/
  ends : ∀ events, (s.run events).step = none → (s.run events).schedule.outcome? task ≠ none

theorem delivers_later (orderly : s.Orderly s.running) {values : List Value}
    (stands : s.Stands task (lateSteps turns action request) (.values values)) : s.DeliversLater task action request where
  answered events outcome settled := by
    have later := orderly.run events
    rcases waits_run orderly stands events with ⟨_, _, waits⟩ | ⟨before, after, split, acts, acted⟩
    · cases (waits.alive later).1.2.symm.trans settled
    · refine ⟨before, after, split, acts, ?_⟩
      generalize ((s.run before).act action request).2 = answer at acted
      cases acted with
      | turn turn => cases ((Stands.turn turn).alive later).1.2.symm.trans settled
      | ended ended => exact Option.some.inj (settled.symm.trans ended)
  once before between acts := by
    have later := orderly.run before
    have acted := (act_step later acts).run (later.happen .step) between
    rw [run_append]
    exact fun again => again.idle ((later.happen .step).run between) acted
  ends events rest := by
    rcases waits_run orderly stands events with ⟨_, _, waits⟩ | ⟨before, after, split, acts, acted⟩
    · exact absurd rest waits.not_rests
    · generalize ((s.run before).act action request).2 = answer at acted
      cases acted with
      | turn turn => exact absurd rest (Stands.turn turn).not_rests
      | ended ended => simp [ended]

/-- Whether a promise is left to be settled from outside, by answers of one number only. -/
structure Leaves (s : Session) (id index : Nat) : Prop where
  there : s.deferred[index]? = some id
  only : ∀ other, s.deferred[other]? = some id → other = index
  unasked : s.asked ≠ some id
  role : s.schedule.role? id = some .outside

theorem Leaves.outside (leaves : s.Leaves id index) : s.schedule.origin? id = some .outside :=
  Schedule.role?_outside.mp leaves.role

theorem Leaves.congr (leaves : s.Leaves id index) (deferred : t.deferred = s.deferred)
    (asked : t.asked = some id → s.asked = some id) (enlarged : s.Enlarges t) : t.Leaves id index where
  there := deferred ▸ leaves.there
  only := deferred ▸ leaves.only
  unasked := leaves.unasked ∘ asked
  role := enlarged.origin leaves.outside

theorem Leaves.grows (leaves : s.Leaves id index) (grows : s.Grows t) : t.Leaves id index := by
  have enlarged := grows.extends.enlarges
  induction grows with
  | aside schedule turn tracked deferred asked => exact leaves.congr deferred (fun same => asked ▸ same) enlarged
  | defer s =>
    have inside := Schedule.origin?_inside leaves.outside
    refine ⟨?_, fun other same => ?_, leaves.unasked, enlarged.origin leaves.outside⟩
    · exact (List.getElem?_append_left (List.getElem?_eq_some_iff.mp leaves.there).1).trans leaves.there
    · change (s.deferred ++ [s.schedule.promises.size])[other]? = some _ at same
      rw [List.getElem?_append] at same
      split at same
      · exact leaves.only other same
      · have new := List.mem_of_getElem? same
        rw [List.mem_singleton.mp new] at inside
        exact absurd inside (Nat.lt_irrefl _)
  | ask s =>
    have inside := Schedule.origin?_inside leaves.outside
    refine leaves.congr rfl (fun same => ?_) enlarged
    cases same
    exact absurd inside (Nat.lt_irrefl _)
  | trans first last earlier later => exact later (earlier leaves first.extends.enlarges) last.extends.enlarges
  | _ => exact leaves.congr rfl (fun same => same) enlarged

theorem Leaves.happen (leaves : s.Leaves id index) (orderly : s.Orderly s.running) (e : Event) :
    (s.happen e).Leaves id index := by
  have enlarged := orderly.enlarges e
  by_cases outside : e = .step
  · subst outside
    cases stepped : s.step with
    | none => simpa only [Session.happen, stepped, Option.getD_none] using leaves
    | some t =>
      simp only [Session.happen, stepped, Option.getD_some] at enlarged ⊢
      rcases step_cases stepped with ⟨own, values, _, rfl⟩ | ⟨own, frame, rest, values, turn, rfl⟩ | ⟨job, queue, _, _, rfl⟩
      · exact leaves.congr rfl (fun same => same) enlarged
      · have taken := leaves.grows (Grows.takeStep s frame values orderly.tracked)
        obtain ⟨asked, deferred⟩ := kept_move (s.takeStep frame values).1 own rest (s.takeStep frame values).2
        exact ⟨deferred ▸ taken.there, deferred ▸ taken.only, asked ▸ taken.unasked, enlarged.origin leaves.outside⟩
      · obtain ⟨asked, deferred⟩ := kept_doJob (s.popped queue) job
        exact leaves.congr deferred (fun same => asked ▸ same) enlarged
  rcases orderly.outside_cases outside with grows | ⟨_, _, asked, _, fewer, same⟩ | ⟨frames, _, same⟩
  · exact leaves.grows grows
  · rw [same] at enlarged ⊢
    exact leaves.congr rfl (fewer id) enlarged
  · rw [same] at enlarged ⊢
    exact leaves.congr rfl (fun same => same) enlarged

/-- A promise that is left to be settled from outside is settled by the first answer for it, and by nothing else. -/
theorem Leaves.settled (leaves : s.Leaves id index) (orderly : s.Orderly s.running) (e : Event)
    (unsettled : s.schedule.outcome? id = none) :
    (∃ outcome, e = .answer index outcome ∧ (s.happen e).schedule.outcome? id = some outcome) ∨
      (∀ outcome, e ≠ .answer index outcome) ∧ (s.happen e).schedule.outcome? id = none := by
  have inside := Schedule.origin?_inside leaves.outside
  have other {own : Nat} {given : Outcome} (different : own ≠ id) : (s.schedule.settle own given).outcome? id = none := by
    cases ended : (s.schedule.settle own given).outcome? id with
    | none => rfl
    | some outcome => exact absurd (settles_own unsettled ended).1 different
  have quiet {e : Event} (still : e.settles = false) : (s.happen e).schedule.outcome? id = none := by
    rcases Orderly.starts_cases (s := s) still with grows | ⟨frames, _, same⟩
    · exact (grows.extends.schedule.outcome inside).trans unsettled
    · rw [same]
      exact ((Schedule.Extends.add _ _ rfl).outcome inside).trans unsettled
  cases e with
  | step => exact Or.inr ⟨by simp, outside_step orderly leaves.outside unsettled⟩
  | hear line =>
    refine Or.inr ⟨by simp, ?_⟩
    simp only [Session.happen, hear]
    split
    · exact unsettled
    next asked => exact other fun same => leaves.unasked (same ▸ asked)
  | answer number outcome =>
    by_cases own : number = index
    · subst own
      have open_ : s.schedule.isPending id = true := by simp [Schedule.isPending, unsettled]
      refine Or.inl ⟨outcome, rfl, ?_⟩
      simp only [Session.happen, Session.answer, leaves.there, Option.filter_some, open_, if_true]
      exact Schedule.outcome?_settle_self ⟨inside, unsettled⟩ outcome
    · refine Or.inr ⟨by simp [own], ?_⟩
      simp only [Session.happen, Session.answer]
      split
      · exact unsettled
      next found =>
        refine other ?_
        rintro rfl
        exact own (leaves.only number (Option.eq_some_of_filter_eq_some found))
  | _ => exact Or.inr ⟨by simp, quiet rfl⟩

/-- Whether a promise ends with the first answer of a number that is given from outside. -/
def DeliversFrom (s : Session) (id index : Nat) : Prop :=
  ∀ events outcome, (s.run events).schedule.outcome? id = some outcome ↔ ∃ before after,
    events = before ++ .answer index outcome :: after ∧ ∀ e ∈ before, ∀ other, e ≠ .answer index other

theorem settled_run (orderly : s.Orderly s.running) {outcome : Outcome} (settled : s.schedule.outcome? id = some outcome)
    (events : List Event) : (s.run events).schedule.outcome? id = some outcome :=
  (orderly.along (P := fun t => t.schedule.outcome? id = some outcome) events settled fun _ e orderly settled =>
    ((orderly.enlarges e).settled (by simp [settled])).trans settled).2

theorem Leaves.delivers (leaves : s.Leaves id index) (orderly : s.Orderly s.running)
    (unsettled : s.schedule.outcome? id = none) : s.DeliversFrom id index := by
  intro events outcome
  induction events generalizing s with
  | nil => simp [run, unsettled]
  | cons e rest ih =>
    rcases leaves.settled orderly e unsettled with ⟨given, rfl, settled⟩ | ⟨other, still⟩
    · have ended : (s.run (.answer index given :: rest)).schedule.outcome? id = some given :=
        settled_run (orderly.happen _) settled rest
      rw [ended]
      constructor
      · rintro ⟨⟩
        exact ⟨[], rest, rfl, by simp⟩
      · rintro ⟨_ | ⟨first, before⟩, after, split, first⟩
        · cases split
          rfl
        · cases split
          exact absurd rfl (first _ (List.mem_cons_self ..) given)
    · refine (ih (leaves.happen orderly e) (orderly.happen e) still).trans ?_
      constructor
      · rintro ⟨before, after, rfl, first⟩
        exact ⟨e :: before, after, rfl, List.forall_mem_cons.mpr ⟨other, first⟩⟩
      · rintro ⟨_ | ⟨first, before⟩, after, split, earlier⟩
        · cases split
          exact absurd rfl (other outcome)
        · cases split
          exact ⟨before, after, rfl, (List.forall_mem_cons.mp earlier).2⟩

/-- The session in which a method is called: the call is counted and recorded. -/
def calling (s : Session) (place : Nat) (request : Request) : Session :=
  { s with coordinator := s.coordinator.count request.counter }.note
    (.called (s.coordinator.service place).label request.method (request.params.map s.datum))

/-- How a call of a method ends, and what it leaves behind. -/
inductive Delivers (s : Session) (script : Script) (request : Request) : Session × Reply → Prop where
  /-- The answer of the action settles a promise at once. -/
  | given (now : script.turns = none) (acts : script.action ≠ .defer) (taken : stops (s.act script.action request).2 = false)
      (settled : ∀ events, (((s.act script.action request).1.settled ((s.act script.action request).2.map fun v => [v])).1.run
          events).schedule.outcome? (s.act script.action request).1.schedule.promises.size =
        some ((s.act script.action request).2.map fun v => [v])) :
      Delivers s script request
        (((s.act script.action request).1.settled ((s.act script.action request).2.map fun v => [v])).1,
          .promise (s.act script.action request).1.schedule.promises.size)
  /-- The action ends as no promise can. -/
  | stopped (now : script.turns = none) (acts : script.action ≠ .defer) (stopped : stops (s.act script.action request).2 = true) :
      Delivers s script request ((s.act script.action request).1, .fault .unpromised)
  | later {turns : Nat} (waits : script.turns = some turns) (acts : script.action ≠ .defer)
      (delivers : (s.spawn (lateSteps turns script.action request)).1.DeliversLater s.schedule.promises.size script.action request) :
      Delivers s script request
        ((s.spawn (lateSteps turns script.action request)).1, .promise s.schedule.promises.size)
  | left (defers : script.action = .defer) (delivers : s.defer.1.DeliversFrom s.schedule.promises.size s.deferred.length) :
      Delivers s script request (s.defer.1, .promise s.schedule.promises.size)

theorem leaves_defer (orderly : s.Orderly s.running) : s.defer.1.Leaves s.schedule.promises.size s.deferred.length where
  there := List.getElem?_concat_length
  only other same := by
    change (s.deferred ++ [s.schedule.promises.size])[other]? = some _ at same
    rw [List.getElem?_append] at same
    split at same
    · have old := orderly.deferred _ (List.mem_of_getElem? same)
      exact absurd (Schedule.origin?_inside old) (Nat.lt_irrefl _)
    next beyond =>
      have first := (List.getElem?_eq_some_iff.mp same).1
      simp only [List.length_singleton] at first
      omega
  unasked same := absurd (Schedule.origin?_inside (orderly.asked _ same)) (Nat.lt_irrefl _)
  role := Schedule.role?_outside.mpr (Orderly.pending_outside s.schedule)

theorem outcome?_defer (s : Session) : s.defer.1.schedule.outcome? s.schedule.promises.size = none := by
  have added : (s.schedule.add { origin := .outside }).1.outcome? s.schedule.promises.size = none := by
    rw [Schedule.outcome?_add, if_pos rfl]
  exact added

theorem outcome?_settled (s : Session) (outcome : Outcome) :
    (s.settled outcome).1.schedule.outcome? s.schedule.promises.size = some outcome := by
  have added : (s.schedule.add { origin := .outside, outcome := some outcome }).1.outcome? s.schedule.promises.size =
      some outcome := by
    rw [Schedule.outcome?_add, if_pos rfl]
  exact added

theorem Orderly.grown (orderly : s.Orderly s.running) (grows : s.Grows t) : t.Orderly t.running := by
  rw [running, grows.extends.turn]
  exact orderly.grows grows

theorem spawned_stands (s : Session) (frames : List Frame) :
    (s.spawn frames).1.Stands s.schedule.promises.size frames (.values []) :=
  .queued (List.mem_append_right _ (List.mem_singleton_self _)) (Schedule.origin?_spawn ..)

theorem delivers_callWrapped (orderly : s.Orderly s.running) (script : Script) (request : Request) :
    s.Delivers script request (s.callWrapped script request) := by
  obtain ⟨action, turns⟩ := script
  by_cases defers : action = .defer
  · subst defers
    have deferred := orderly.grows (.defer s)
    exact .left rfl ((leaves_defer orderly).delivers deferred (outcome?_defer s))
  · cases turns with
    | some turns =>
      have spawned := orderly.grows (.spawn s (lateSteps turns action request))
      have called : s.callWrapped { action, turns := some turns } request =
          ((s.spawn (lateSteps turns action request)).1, .promise s.schedule.promises.size) := by
        cases action <;> first | exact absurd rfl defers | rfl
      rw [called]
      exact .later rfl defers (delivers_later spawned (spawned_stands s _))
    | none =>
      have called : s.callWrapped { action } request = (s.act action request).1.promised (s.act action request).2 := by
        cases action <;> first | exact absurd rfl defers | rfl
      rw [called]
      cases taken : stops (s.act action request).2 with
      | true =>
        rw [promised_stopped taken]
        exact .stopped rfl defers taken
      | false =>
        rw [promised_settled taken]
        have grown := (Grows.act s action request).trans (.settled _ ((s.act action request).2.map fun v => [v]))
        exact .given rfl defers taken fun events => settled_run (orderly.grown grown) (outcome?_settled ..) events

/-- What it is to execute a method of a service that hands over the ends of its methods. -/
theorem execute_wrapped {place : Nat} (wrapped : (s.coordinator.service place).execution = .wrapped) {name : Value}
    (named : s.store.container? name = none) (params : List Value) :
    s.execute place name params = match (s.coordinator.service place).method? name with
      | none => (s, .fault (.noMethod (s.plain name)))
      | some m => (s.beginCall place m params).1.callWrapped m.script (s.beginCall place m params).2 := by
  unfold execute
  dsimp only
  rw [wrapped, checkName_ok.mpr named]
  cases (s.coordinator.service place).method? name <;> rfl

theorem provides_listed {place : Nat} (listed : (s.coordinator.service place).provision = .listed) {name : Value}
    (named : s.store.container? name = none) :
    s.provides place name = .ok ((s.coordinator.service place).method? name).isSome := by
  simp only [provides, checkName_ok.mpr named, Service.provides?, listed, bind, Except.bind]
  rfl

theorem unnamed {place : Nat} (wrapped : (s.coordinator.service place).execution = .wrapped) {name : Value} {kind : String}
    (container : s.store.container? name = some kind) (params : List Value) :
    s.provides place name = .error (.noKey kind) ∧ s.execute place name params = (s, .fault (.noKey kind)) := by
  have refused : s.checkName name = .error (.noKey kind) := by simp only [checkName, container]
  refine ⟨by simp only [provides, refused, bind, Except.bind], ?_⟩
  unfold execute
  dsimp only
  rw [wrapped, refused]

/-- A service that lists its methods and hands over their ends provides exactly the names that something was
exposed under. By any other name a call of it is refused, and nothing happens. By one of these, the method is
called that was exposed last, once and with the given parameters, and the answer is a promise that ends as the
method does. Nothing is raised then, unless the method ends during the call as no promise can. -/
theorem execute_delivers {s : Session} (reachable : s.Reachable) {place : Nat}
    (listed : (s.coordinator.service place).provision = .listed) (wrapped : (s.coordinator.service place).execution = .wrapped)
    (bare : (s.coordinator.service place).methods = []) (exposures : List Exposure) (name : Value) (params : List Value) :
    let t := s.run (exposures.map (Exposure.event place))
    (∀ kind, s.store.container? name = some kind →
      t.provides place name = .error (.noKey kind) ∧ t.execute place name params = (t, .fault (.noKey kind))) ∧
    (s.store.container? name = none →
      t.provides place name = .ok (s.store.latest? exposures name).isSome ∧
      (s.store.latest? exposures name = none → t.execute place name params = (t, .fault (.noMethod (t.plain name)))) ∧
      ∀ x, s.store.latest? exposures name = some x → ∃ request, request.method = x.label ∧ request.params = params ∧
        request.context = s.coordinator.context ∧
        (t.calling place request).Delivers x.script request (t.execute place name params)) := by
  intro t
  have inside : place < s.coordinator.services.size :=
    Coordinator.inside_of_provision (by rw [listed]; simp)
  obtain ⟨exposes, latest⟩ := exposes_all inside exposures name
  have none : (s.coordinator.service place).method? name = none := by simp [Service.method?, bare]
  rw [none, Option.map_none, Option.or_none] at latest
  have wrapped : (t.coordinator.service place).execution = .wrapped := exposes.execution.trans wrapped
  have listed : (t.coordinator.service place).provision = .listed := exposes.provision.trans listed
  have store : t.store = s.store := exposes.store
  refine ⟨fun kind container => unnamed wrapped (store ▸ container) params, fun named => ?_⟩
  rw [← store] at named
  have known : ((t.coordinator.service place).method? name).isSome = (s.store.latest? exposures name).isSome := by
    simpa using congrArg Option.isSome latest
  refine ⟨known ▸ provides_listed listed named, fun absent => ?_, fun x found => ?_⟩
  · rw [absent, Option.map_none, Option.map_eq_none_iff] at latest
    rw [execute_wrapped wrapped named, latest]
  · rw [found, Option.map_some] at latest
    obtain ⟨m, held, exposed⟩ := Option.map_eq_some_iff.mp latest
    obtain ⟨label, script⟩ := Prod.mk.inj exposed
    have orderly := (reachable.orderly.run (exposures.map (Exposure.event place))).grown (.beginCall t place m params)
    refine ⟨(t.beginCall place m params).2, label, rfl, exposes.context, ?_⟩
    rw [execute_wrapped wrapped named, held, ← script]
    exact delivers_callWrapped orderly m.script _

/-- A service that hands over the ends of its methods, and has none yet. -/
private def workshop : Session where
  coordinator :=
    { services := #[{ label := some "svc", nature := { kind := "Service" }, provision := .listed, execution := .wrapped }] }

/-- Two methods under one name. -/
private def replaced : List Exposure :=
  [{ name := .text "f", label := "old", script := { action := .echo } },
    { name := .text "f", label := "new", script := { action := .echo, turns := some 2 } }]

theorem workshop_delivers : workshop.Reachable ∧ (workshop.coordinator.service 0).provision = .listed ∧
    (workshop.coordinator.service 0).execution = .wrapped ∧ (workshop.coordinator.service 0).methods = [] ∧
    let t := workshop.run (replaced.map (Exposure.event 0))
    t.provides 0 (.text "f") = .ok true ∧ ∃ request, request.method = "new" ∧ request.params = [.int 7] ∧
      (t.calling 0 request).Delivers { action := .echo, turns := some 2 } request (t.execute 0 (.text "f") [.int 7]) := by
  have reachable : workshop.Reachable := ⟨workshop, [], ⟨rfl, rfl, rfl, rfl, rfl⟩, rfl⟩
  have latest : workshop.store.latest? replaced (.text "f") = replaced[1]? := by
    simp [Store.latest?, replaced, Store.container?, Value.text_sameKey]
  obtain ⟨-, named⟩ := @execute_delivers workshop reachable 0 rfl rfl rfl replaced (.text "f") [.int 7]
  obtain ⟨provides, -, delivers⟩ := named rfl
  rw [latest] at provides delivers
  obtain ⟨request, method, params, -, ends⟩ := delivers _ rfl
  exact ⟨reachable, rfl, rfl, rfl, provides, request, method, params, ends⟩

/-- A method that ends as an iteration does is provided, but a call of it raises a fault of its own, and there is
no promise that ends as the method did. -/
example :
    let t := workshop.run [.expose 0 (.text "f") "f" { action := .fail .stop "boom" }]
    t.provides 0 (.text "f") = .ok true ∧ (t.execute 0 (.text "f") []).2 = .fault .unpromised ∧ Fault.unpromised.kind = .type :=
  ⟨rfl, rfl, rfl⟩

/-- A list is no name that a service can look up: whether it provides that is not answered, and a call of it raises
a fault of its own in place of the one for names that are not provided. -/
theorem listed_name_raises :
    let t := { workshop with store := { cells := #[.list [.text "f"]] } }.run [.expose 0 (.text "f") "f" { action := .echo }]
    t.provides 0 (.ref 0) = .error (.noKey "list") ∧ (t.execute 0 (.ref 0) []).2 = .fault (.noKey "list") ∧
      (Fault.noKey "list").kind = .type ∧ (Fault.noMethod (t.plain (.ref 0))).kind ≠ .type :=
  ⟨rfl, rfl, rfl, nofun⟩

end Interaction.Session
