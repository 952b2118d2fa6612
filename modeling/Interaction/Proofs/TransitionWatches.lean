import Interaction.Proofs.Chronicle

/-! Vigils: what a transition makes a session watch, which is the promise that its behaviour ends
with, under the name of the state that is entered. Nothing else comes to be watched, and whatever is
watched no more has been reported on. -/

namespace Interaction

/-- The report on behaviour that has failed, by the name of the state that it belongs to. -/
def Record.failure (name : Datum) (fault : Fault) : Record :=
  { Record.interpreter Level.error ("Behavior of '" ++ name.plain ++ "' failed: " ++ fault.message) with
    state := some name, fault := some fault }

/-- What is written down of behaviour that has ended, which is nothing unless it has failed. -/
def Record.ofOutcome? (name : Datum) : Outcome → Option Record
  | .ok _ => none
  | .error fault => some (.failure name fault)

theorem Record.isFailure_failure (name : Datum) (fault : Fault) : (Record.failure name fault).isFailure = true := by
  simp [Record.isFailure, Record.failure, Record.interpreter]

namespace Session

/-- What is watched once a transition has asked for its behaviour: the name of the state that is
entered, and the promise that the behaviour ends with. -/
def vigil? (s : Session) (e : Entrance) : Option (Value × Nat) :=
  let name := s.store.field e.target "name"
  if s.behavior = .absent then none
  else if s.store.truthy e.config then
    match s.executeTransition e.config with
    | (_, .error _) => none
    | (t, .ok _) => some (name, t.schedule.promises.size)
  else
    match (s.executeState (s.store.field e.target "do")).2 with
    | .ok (some id) => some (name, id)
    | _ => none

/-- What an operation answers to whoever asked for it. -/
def outcome (s : Session) : Operation → Except Fault Unit
  | .load model => (s.load model).2.map fun _ => ()
  | .setRunning on => (s.setRunning on).2
  | .reset => .ok ()
  | .fire name => (s.fire name).2

/-- What the behaviour answers at once to the first thing that a transition asks it for. -/
def consulted (s : Session) (e : Entrance) : Except Fault (Option Nat) :=
  (s.consult (s.behaviorOf e).1 (s.behaviorOf e).2).2

/-- What a transition may answer to whoever asked for it, and what it may make the session watch. -/
inductive Undertakes (s : Session) (e : Entrance) : Except Fault Unit → Option (Value × Nat) → Prop where
  | absent (none : s.behavior = .absent) : Undertakes s e (.ok ()) .none
  | raised {fault : Fault} (answered : s.consulted e = .error fault) : Undertakes s e (.error fault) .none
  | nothing (silent : s.store.truthy e.config = false) (answered : s.consulted e = .ok none) : Undertakes s e (.ok ()) .none
  | state {id : Nat} (silent : s.store.truthy e.config = false) (answered : s.consulted e = .ok (some id)) :
    Undertakes s e (.ok ()) (some (s.store.field e.target "name", id))
  | transition {f : Follower} (given : s.store.truthy e.config = true) (follower : s.follower? e = some f)
      (target : f.target = e.target) (answered : s.consulted e = .ok f.answer) :
    Undertakes s e (.ok ()) (some (s.store.field e.target "name", f.task))

theorem vigil?_absent {s : Session} (none : s.behavior = .absent) (e : Entrance) : s.vigil? e = .none :=
  if_pos none

theorem vigil?_asked {s t : Session} {e : Entrance} {answer : Except Fault (Option Nat)} (attached : s.behavior ≠ .absent)
    (asked : s.consult (s.behaviorOf e).1 (s.behaviorOf e).2 = (t, answer)) : s.vigil? e = match answer with
      | .error _ => none
      | .ok id => if s.store.truthy e.config then some (s.store.field e.target "name", t.schedule.promises.size)
          else id.map (s.store.field e.target "name", ·) := by
  rw [vigil?, if_neg attached]
  cases truthy : s.store.truthy e.config with
  | true =>
    rw [behaviorOf, truthy] at asked
    have asked : s.executeTransition e.config = (t, answer) := asked
    rw [asked]
    cases answer <;> rfl
  | false =>
    rw [behaviorOf, truthy] at asked
    have asked : s.executeState (s.store.field e.target "do") = (t, answer) := asked
    rw [asked]
    obtain fault | (_ | id) := answer <;> rfl

theorem undertakes_perform (s : Session) (e : Entrance) : s.Undertakes e (s.perform e).2 (s.vigil? e) := by
  have enacts := s.enacts_perform e
  generalize s.perform e = result, followed : s.follower? e = f at enacts
  cases enacts with
  | absent none =>
    rw [vigil?_absent none]
    exact .absent none
  | raised attached asked =>
    rw [vigil?_asked attached asked]
    exact .raised (congrArg Prod.snd asked)
  | nothing attached silent asked =>
    rw [vigil?_asked attached asked, silent]
    exact .nothing silent (congrArg Prod.snd asked)
  | state attached silent asked =>
    rw [vigil?_asked attached asked, silent]
    exact .state silent (congrArg Prod.snd asked)
  | transition attached given asked =>
    rw [vigil?_asked attached asked, given]
    exact .transition given followed rfl (congrArg Prod.snd asked)

theorem outcome_entered {s : Session} {o : Operation} {e : Entrance} (entered : s.entrance? o = some e) :
    s.outcome o = ((s.opened o).perform e).2 := by
  obtain ⟨m, machine, enters⟩ := Option.bind_eq_some_iff.mp entered
  cases o with
  | load model =>
    simp only [Machine.entrance?, Machine.operate] at enters
    cases loaded : (m.load s.store model).2.2 <;> rw [loaded] at enters <;> cases enters
  | setRunning on =>
    have same : (m.setRunning s.store on).2.2 = some e := enters
    simp only [outcome, setRunning, machine, same, opened]
    rfl
  | reset => cases enters
  | fire name =>
    simp only [Machine.entrance?, Machine.operate] at enters
    simp only [outcome, fire, machine, opened, Machine.operate]
    cases fired : (m.fire s.store name).2.2 with
    | error fault =>
      rw [fired] at enters
      cases enters
    | ok entrance =>
      rw [fired] at enters
      cases enters
      rfl

end Session

def Milestone.vigil? : Milestone → Option (Value × Nat)
  | .operate s o => (s.entrance? o).bind (s.opened o).vigil?
  | _ => none

namespace Session

/-- Whether one session watches what another one does, and one thing more at most. -/
structure Watches (s t : Session) (more : Option (Value × Nat)) : Prop where
  tracked : t.tracked = s.tracked ++ (more.map (·.2)).toList
  reports : t.reports.Perm (more.toList ++ s.reports)
  failures : t.failures = s.failures

variable {s t u : Session} {more : Option (Value × Nat)}

theorem SameWatch.watches (same : s.SameWatch t) : s.Watches t none :=
  ⟨same.tracked.trans (List.append_nil _).symm, same.reports, same.failures⟩

theorem Watches.after (watches : t.Watches u more) (same : s.SameWatch t) : s.Watches u more :=
  ⟨watches.tracked.trans (by rw [same.tracked]), watches.reports.trans (same.reports.append_left _),
    watches.failures.trans same.failures⟩

theorem Watches.before (watches : s.Watches t more) (same : t.SameWatch u) : s.Watches u more :=
  ⟨same.tracked.trans watches.tracked, same.reports.trans watches.reports, same.failures.trans watches.failures⟩

theorem Watches.track (s : Session) {id : Nat} (inside : id < s.schedule.promises.size) (new : id ∉ s.tracked)
    (name : Value) : s.Watches (s.track id name) (some (name, id)) := by
  refine ⟨?_, s.schedule.reports_watch inside name, rfl⟩
  simp [Session.track, new]

theorem failure?_appeal {o : Occurrence} (appeal : o.isAppeal = true) : o.failure? = none := by
  cases o with
  | reported r => cases appeal
  | _ => rfl

theorem SameWatch.consult (s : Session) (entry : Entry) (config : Value) : s.SameWatch (s.consult entry config).1 := by
  have consults := s.consults entry config
  generalize (s.consult entry config).1 = t at consults ⊢
  cases consults with
  | absent => exact .refl s
  | canned _ appeal answer => exact (SameWatch.note s (failure?_appeal appeal)).trans (Calm.answerCanned _ answer).watch
  | coordinated =>
    cases entry with
    | transition => exact (Calm.coordinateTransition s config).watch
    | state =>
      rcases Calm.coordinateState_cases s config with calm | ⟨_, _, accepted⟩
      · exact calm.watch
      · rw [coordinate, accepted]
        exact .spawn s _

/-- What a transition makes a session watch is new, and the only thing that comes to be watched. -/
theorem watches_perform (known : ∀ id ∈ s.tracked, id < s.schedule.promises.size) (e : Entrance) :
    s.Watches (s.perform e).1 (s.vigil? e) ∧ ∀ vigil, s.vigil? e = some vigil →
      vigil.1 = s.store.field e.target "name" ∧ s.schedule.promises.size ≤ vigil.2 ∧
        vigil.2 < (s.perform e).1.schedule.promises.size := by
  have track {t : Session} (same : s.SameWatch t) {id : Nat} (new : s.schedule.promises.size ≤ id)
      (inside : id < t.schedule.promises.size) (name : Value) : s.Watches (t.track id name) (some (name, id)) := by
    refine (Watches.track t inside ?_ name).after same
    rw [same.tracked]
    exact fun old => absurd (known id old) (Nat.not_lt_of_le new)
  have same := SameWatch.consult s (s.behaviorOf e).1 (s.behaviorOf e).2
  have starts := s.starts_consult (s.behaviorOf e).1 (s.behaviorOf e).2
  have enacts := s.enacts_perform e
  generalize s.perform e = result, s.follower? e = f at enacts
  cases enacts with
  | absent none =>
    rw [vigil?_absent none]
    exact ⟨(SameWatch.refl s).watches, by simp⟩
  | raised attached asked =>
    rw [asked] at same
    rw [vigil?_asked attached asked]
    exact ⟨same.watches, by simp⟩
  | nothing attached silent asked =>
    rw [asked] at same
    rw [vigil?_asked attached asked, silent]
    exact ⟨same.watches, by simp⟩
  | @state t id attached silent asked =>
    rw [asked] at same starts
    rw [vigil?_asked attached asked, silent]
    obtain ⟨new, inside⟩ := (starts.only id).mp rfl
    refine ⟨track same new inside _, ?_⟩
    rintro _ ⟨⟩
    exact ⟨rfl, new, Nat.lt_of_lt_of_eq inside (Schedule.size_watch ..).symm⟩
  | @transition t answer attached given asked =>
    rw [asked] at same starts
    rw [vigil?_asked attached asked, given]
    have new := starts.grows.extends.schedule.size
    have size := Schedule.size_spawn t.schedule [afterTransition answer, .enterState e.target]
    have inside : t.schedule.promises.size < (t.spawn [afterTransition answer, .enterState e.target]).1.schedule.promises.size :=
      Nat.lt_of_lt_of_eq (Nat.lt_succ_self _) size.symm
    refine ⟨track (same.trans (.spawn t _)) new inside _, ?_⟩
    rintro _ ⟨⟩
    exact ⟨rfl, new, Nat.lt_of_lt_of_eq inside (Schedule.size_watch ..).symm⟩

theorem SameWatch.opened (s : Session) (o : Operation) : s.SameWatch (s.opened o) := by
  unfold Session.opened
  split
  · exact .refl s
  next m _ =>
    have moved : s.SameWatch { s with machine := some (m.operate s.store o).1 } := .same rfl rfl rfl
    exact moved.trans (.logAll _ (m.records_operate s.store o))

theorem SameWatch.place (s : Session) (config : Value) (whole : Bool) (values : List Value) :
    s.SameWatch (s.place config whole values).1 := by
  obtain ⟨_, more, _, same, calm⟩ := s.place_made config whole values
  have silent : more.filterMap Occurrence.failure? = [] := by
    refine List.filterMap_eq_nil_iff.mpr fun o member => ?_
    cases o with
    | reported r => simp [Occurrence.failure?, Record.isFailure, calm r member]
    | _ => rfl
  have kept : (more ++ s.trace).filterMap Occurrence.failure? = s.trace.filterMap Occurrence.failure? := by
    rw [List.filterMap_append, silent, List.nil_append]
  rw [same]
  exact ⟨rfl, .refl _, kept⟩

/-- What is watched after a milestone is what was watched before it, and the vigil of a transition. -/
theorem watches_done (k : Milestone) (known : ∀ id ∈ k.session.tracked, id < k.session.schedule.promises.size) :
    k.session.Watches k.done k.vigil? ∧ ∀ vigil, k.vigil? = some vigil →
      k.session.schedule.promises.size ≤ vigil.2 ∧ vigil.2 < k.done.schedule.promises.size := by
  cases k with
  | enter s task target => exact ⟨(SameWatch.consult s .state _).watches, by simp [Milestone.vigil?]⟩
  | place s task config whole values => exact ⟨(SameWatch.place s config whole values).watches, by simp [Milestone.vigil?]⟩
  | operate s o =>
    have opened := SameWatch.opened s o
    simp only [Milestone.session, Milestone.done, Milestone.vigil?, operate]
    cases s.entrance? o with
    | none => exact ⟨opened.watches, by simp⟩
    | some e =>
      obtain ⟨watches, new⟩ := (s.opened o).watches_perform (by rwa [opened.tracked, s.schedule_opened]) e
      refine ⟨watches.after opened, fun vigil left => ?_⟩
      obtain ⟨-, new, inside⟩ := new vigil left
      rw [s.schedule_opened] at new
      exact ⟨new, inside⟩

theorem Passes.watches {passed : Option Milestone} (passes : s.Passes t passed)
    (known : ∀ id ∈ s.tracked, id < s.schedule.promises.size) :
    s.Watches t (passed.bind Milestone.vigil?) ∧ ∀ vigil, passed.bind Milestone.vigil? = some vigil →
      s.schedule.promises.size ≤ vigil.2 ∧ vigil.2 < t.schedule.promises.size := by
  cases passed with
  | none => exact ⟨(Calm.watch passes).watches, by simp⟩
  | some k =>
    obtain ⟨meets, calm⟩ := passes
    obtain ⟨watches, new⟩ := watches_done k (by rwa [meets.calm.watch.tracked, meets.schedule])
    refine ⟨(watches.after meets.calm.watch).before calm.watch, fun vigil left => ?_⟩
    obtain ⟨new, inside⟩ := new vigil left
    rw [meets.schedule] at new
    exact ⟨new, Nat.lt_of_lt_of_le inside calm.grows.extends.schedule.size⟩

/-- Unless a report is made, what happens leaves alone what is watched, but for the vigil of a transition. -/
theorem watches_happen (orderly : s.Orderly s.running) {e : Event} (silent : s.tells? e = none) :
    s.Watches (s.happen e) ((s.milestone? e).bind Milestone.vigil?) ∧
      ∀ vigil, (s.milestone? e).bind Milestone.vigil? = some vigil →
        s.schedule.promises.size ≤ vigil.2 ∧ vigil.2 < (s.happen e).schedule.promises.size := by
  rcases continues orderly e with @⟨task, frame, rest, values, rfl, turn, passes⟩ | passes | @⟨place, rfl, accepted⟩ | ⟨none, _, _, watch⟩
  · obtain ⟨watches, new⟩ := passes.watches orderly.tracked
    constructor
    · rw [happen_step turn]
      exact watches.before (.move ..)
    · intro vigil left
      obtain ⟨new, inside⟩ := new vigil left
      exact ⟨new, Nat.lt_of_lt_of_le inside (enlarges_step orderly turn).size⟩
  · exact passes.watches orderly.tracked
  · have happened : s.happen (.coordinate .state (.ref place)) = (s.spawn [.materialize (.ref place)]).1 :=
      congrArg Prod.fst accepted
    rw [happened]
    exact ⟨(SameWatch.spawn s _).watches, by simp [milestone?]⟩
  · rw [none]
    exact ⟨(watch silent).watches, by simp⟩

/-- What a report on a promise writes down. -/
def failed? (s : Session) (name : Value) (id : Nat) : Option Record :=
  (s.schedule.outcome? id).bind (Record.ofOutcome? (s.datum name))

theorem failures_reportBehavior (s : Session) (name : Value) (id : Nat) :
    (s.reportBehavior name id).failures = (s.failed? name id).toList ++ s.failures := by
  unfold reportBehavior failed?
  dsimp only
  cases s.schedule.outcome? id with
  | none => rfl
  | some outcome =>
    cases outcome with
    | ok values => rfl
    | error fault =>
      have told : Occurrence.failure? (.reported (.failure (s.datum name) fault)) = some (.failure (s.datum name) fault) := by
        rw [Occurrence.failure?, if_pos (Record.isFailure_failure ..)]
      exact List.filterMap_cons_some told

theorem tracked_reportBehavior (s : Session) (name : Value) (id : Nat) :
    (s.reportBehavior name id).tracked = s.tracked.erase id := by
  unfold reportBehavior
  dsimp only
  split <;> rfl

/-- A report is made once what it is about is settled. It is about no longer watched then. -/
theorem told_happen (orderly : s.Orderly s.running) {e : Event} {name : Value} {id : Nat} (told : s.tells? e = some (name, id)) :
    e = .step ∧ s.milestone? e = none ∧ s.turn = none ∧ s.schedule.outcome? id ≠ none ∧
      (∃ queue, s.schedule.queue = .tell (.report name) id :: queue) ∧
      (s.happen e).tracked = s.tracked.erase id ∧ s.reports = (name, id) :: (s.happen e).reports ∧
      (s.happen e).failures = (s.failed? name id).toList ++ s.failures := by
  unfold tells? at told
  split at told
  · split at told
    next queue turn next =>
      cases told
      have same : s.happen .step = (s.popped queue).reportBehavior name id := by
        simp only [happen, step, turn, next, Option.getD_some, popped, doJob]
      rw [same, tracked_reportBehavior, failures_reportBehavior]
      refine ⟨rfl, by simp only [milestone?, turn], turn, ?_, ⟨_, next⟩, rfl, ?_, rfl⟩
      · exact orderly.schedule.told _ _ (next ▸ List.mem_cons_self ..)
      · have first := Schedule.reports_next next
        rw [reports, first, reports, schedule_reportBehavior]
        rfl
    · cases told
  · cases told

end Session

end Interaction
