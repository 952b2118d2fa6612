import Interaction.Proofs.Acting
import Interaction.Proofs.Extension

/-! What an operation of a session may do before a turn ends. It starts work and takes
note of it; what was there before stays as it is. The registry of services and what the
services provide only grow. -/

namespace Interaction

/-- Whether a step belongs to the behaviour of a transition. The others wait for behaviour, or
handle lines of input. -/
def Frame.isWork : Frame → Bool
  | .drain | .ask | .hear | .line _ | .onward | .announce | .stop | .stopped => false
  | _ => true

namespace Session

theorem logAll_eq (s : Session) (rs : List Record) :
    s.logAll rs = { s with trace := (rs.map .reported).reverse ++ s.trace } := by
  induction rs generalizing s with
  | nil => rfl
  | cons r rs ih =>
    refine (ih (s.log r)).trans ?_
    simp only [log, note, List.map_cons, List.reverse_cons, List.append_assoc, List.singleton_append]

/-- Whether behaviour is about to begin with a promise, which is left to be settled from outside
or stands for a task before its first turn. -/
structure Begun (s : Session) (id : Nat) : Prop where
  inside : id < s.schedule.promises.size
  single : s.schedule.members? id = none
  ready : ∀ frames, s.schedule.origin? id = some (.task frames) →
    .run id ∈ s.schedule.queue ∧ ∀ frame ∈ frames, frame.isWork = true

/-- The promise that a task waits for first. -/
def awaited (s : Session) (task : Nat) : List Nat :=
  match s.schedule.frames task with
  | .await id :: _ => [id]
  | _ => []

/-- Whether the behaviour of a transition is about to begin. -/
structure Launched (s : Session) (root : Nat) : Prop where
  own : s.Begun root
  first : ∀ id ∈ s.awaited root, s.Begun id

theorem Begun.later {s t : Session} {id : Nat} (begun : s.Begun id) (extended : s.schedule.Extends t.schedule) :
    t.Begun id where
  inside := Nat.lt_of_lt_of_le begun.inside extended.size
  single := by rw [extended.members? begun.inside, begun.single]
  ready frames held := by
    rw [extended.origin begun.inside] at held
    rw [extended.queued begun.inside]
    exact begun.ready frames held

theorem Launched.later {s t : Session} {root : Nat} (launched : s.Launched root)
    (extended : s.schedule.Extends t.schedule) : t.Launched root where
  own := launched.own.later extended
  first id member := by
    rw [awaited, extended.frames launched.own.inside] at member
    exact (launched.first id member).later extended

theorem begun_spawn (s : Session) {frames : List Frame} (work : ∀ frame ∈ frames, frame.isWork = true) :
    (s.spawn frames).1.Begun s.schedule.promises.size := by
  have origin : (s.spawn frames).1.schedule.origin? s.schedule.promises.size = some (.task frames) :=
    Schedule.origin?_spawn ..
  refine ⟨Schedule.origin?_inside origin, ?_, fun steps held => ?_⟩
  · exact Schedule.members?_origin origin
  · cases origin.symm.trans held
    exact ⟨List.mem_append_right _ (List.mem_singleton_self _), work⟩

theorem begun_outside {s : Session} {id : Nat} (outside : s.schedule.origin? id = some .outside) : s.Begun id :=
  ⟨Schedule.origin?_inside outside, Schedule.members?_origin outside, by simp [outside]⟩

theorem awaited_outside {s : Session} {id : Nat} (outside : s.schedule.origin? id = some .outside) :
    s.awaited id = [] := by
  simp only [Schedule.origin?] at outside
  simp only [awaited, Schedule.frames, outside]

theorem awaited_spawn (s : Session) (frames : List Frame) :
    (s.spawn frames).1.awaited s.schedule.promises.size = match frames with
      | .await id :: _ => [id]
      | _ => [] := by
  have held : (s.spawn frames).1.schedule.frames s.schedule.promises.size = frames :=
    Schedule.frames_eq (Schedule.origin?_spawn ..)
  rw [awaited, held]

/-- What an operation starts and takes note of before a turn ends. -/
inductive Grows : Session → Session → Prop where
  /-- Nothing is scheduled. -/
  | aside {s t : Session} (schedule : t.schedule = s.schedule) (turn : t.turn = s.turn)
      (tracked : t.tracked = s.tracked) (deferred : t.deferred = s.deferred) (asked : t.asked = s.asked)
      (behavior : t.behavior = s.behavior) (coordinator : s.coordinator.Extends t.coordinator) : Grows s t
  | spawn (s : Session) (frames : List Frame) : Grows s (s.spawn frames).1
  | settled (s : Session) (outcome : Outcome) : Grows s (s.settled outcome).1
  | defer (s : Session) : Grows s s.defer.1
  | ask (s : Session) : Grows s s.ask.1
  | join (s : Session) {members : List Nat} (inside : ∀ member ∈ members, member < s.schedule.promises.size)
      (patient : Bool) : Grows s (s.scheduled (·.join members patient)).1
  | track (s : Session) {id : Nat} (launched : s.Launched id) (name : Value) : Grows s (s.track id name)
  | trans {s t u : Session} (first : Grows s t) (last : Grows t u) : Grows s u

namespace Grows

variable {s : Session}

theorem refl (s : Session) : Grows s s :=
  .aside rfl rfl rfl rfl rfl rfl (.refl _)

theorem note (s : Session) (o : Occurrence) : s.Grows (s.note o) :=
  .aside rfl rfl rfl rfl rfl rfl (.refl _)

theorem log (s : Session) (r : Record) : s.Grows (s.log r) :=
  .note s _

theorem logAll (s : Session) (rs : List Record) : s.Grows (s.logAll rs) := by
  induction rs generalizing s with
  | nil => exact .refl s
  | cons r rs ih => exact (Grows.log s r).trans (ih (s.log r))

theorem machine (s : Session) (m : Machine) (rs : List Record) : s.Grows ({ s with machine := some m }.logAll rs) :=
  Grows.trans (t := { s with machine := some m }) (.aside rfl rfl rfl rfl rfl rfl (.refl _)) (.logAll _ rs)

theorem store (s : Session) (store : Store) : s.Grows { s with store } :=
  .aside rfl rfl rfl rfl rfl rfl (.refl _)

end Grows

/-- An operation that starts work answers with a promise that behaviour begins with, and starts
nothing else. -/
structure Starts (s : Session) (result : Session × Except Fault (Option Nat)) : Prop where
  grows : s.Grows result.1
  launched : ∀ id, result.2 = .ok (some id) → result.1.Launched id
  only : ∀ id, result.2 = .ok (some id) ↔ s.schedule.promises.size ≤ id ∧ id < result.1.schedule.promises.size

namespace Starts

variable {s t : Session}

theorem aside (grows : s.Grows t) (same : t.schedule = s.schedule) {answer : Except Fault (Option Nat)}
    (silent : ∀ id, answer ≠ .ok (some id)) : s.Starts (t, answer) where
  grows := grows
  launched id answered := absurd answered (silent id)
  only id := by
    rw [same]
    exact ⟨fun answered => absurd answered (silent id), fun new => absurd new.2 (Nat.not_lt_of_le new.1)⟩

theorem outside {u : Session} {id : Nat} (grows : s.Grows u) (same : t.schedule = s.schedule)
    (added : u.schedule.promises.size = t.schedule.promises.size + 1) (fresh : id = t.schedule.promises.size)
    (origin : u.schedule.origin? id = some .outside) : s.Starts (u, .ok (some id)) where
  grows := grows
  launched other answered := by
    cases answered
    exact ⟨begun_outside origin, by simp [awaited_outside origin]⟩
  only other := by
    rw [same] at added fresh
    simp only [Except.ok.injEq, Option.some.injEq]
    omega

theorem settled (grows : s.Grows t) (same : t.schedule = s.schedule) (outcome : Outcome) :
    s.Starts ((t.settled outcome).1, .ok (some (t.settled outcome).2)) :=
  .outside (grows.trans (.settled t outcome)) same (Schedule.size_add ..) rfl
    ((Schedule.origin?_add ..).trans (if_pos rfl))

theorem defer (grows : s.Grows t) (same : t.schedule = s.schedule) :
    s.Starts (t.defer.1, .ok (some t.defer.2)) :=
  .outside (grows.trans (.defer t)) same (Schedule.size_add ..) rfl ((Schedule.origin?_add ..).trans (if_pos rfl))

theorem spawn (s : Session) {frames : List Frame} (work : ∀ frame ∈ frames, frame.isWork = true)
    (direct : ∀ id rest, frames ≠ .await id :: rest) :
    s.Starts ((s.spawn frames).1, .ok (some (s.spawn frames).2)) where
  grows := .spawn s frames
  launched id answered := by
    cases answered
    refine ⟨s.begun_spawn work, ?_⟩
    intro id member
    have awaits := s.awaited_spawn frames
    split at awaits
    next id rest => exact absurd rfl (direct id rest)
    next =>
      have none : (s.spawn frames).1.awaited (s.spawn frames).2 = [] := awaits
      simp [none] at member
  only id := by
    have size : (s.spawn frames).1.schedule.promises.size = s.schedule.promises.size + 1 := Schedule.size_spawn ..
    have own : (s.spawn frames).2 = s.schedule.promises.size := rfl
    simp only [Except.ok.injEq, Option.some.injEq]
    omega

theorem answerCanned (grows : s.Grows t) (same : t.schedule = s.schedule) (answer : Canned) :
    s.Starts (t.answerCanned answer) := by
  cases answer with
  | nothing => exact .aside grows same (by simp)
  | done => exact .settled grows same _
  | failed => exact .settled grows same _
  | defer => exact .defer grows same
  | refuse => exact .aside grows same (by simp)

theorem callService (s : Session) (config given : Value) :
    s.Starts ((s.callService config given).1, (s.callService config given).2.map some) := by
  unfold Session.callService
  split
  · exact .aside (.refl s) rfl (by simp [Except.map])
  · exact .spawn s (by simp [Frame.isWork]) (by simp)

theorem coordinateTransition (s : Session) (config : Value) :
    s.Starts ((s.coordinateTransition config).1, (s.coordinateTransition config).2.map some) := by
  unfold Session.coordinateTransition
  split
  · exact .callService s config .null
  · exact .settled (.refl s) rfl _

theorem coordinateState (s : Session) (config : Value) :
    s.Starts ((s.coordinateState config).1, (s.coordinateState config).2.map some) := by
  unfold Session.coordinateState
  split
  · exact .settled (.log s _) rfl _
  · split
    · exact .aside (.refl s) rfl (by simp [Except.map])
    · exact .spawn s (by simp [Frame.isWork]) (by simp)

theorem executeState (s : Session) (config : Value) : s.Starts (s.executeState config) := by
  unfold Session.executeState
  split
  · exact .aside (.refl s) rfl (by simp)
  · exact .answerCanned (.note s _) rfl _
  · exact .coordinateState s config

theorem executeTransition (s : Session) (config : Value) : s.Starts (s.executeTransition config) := by
  unfold Session.executeTransition
  split
  · exact .aside (.refl s) rfl (by simp)
  · exact .answerCanned (.note s _) rfl _
  · exact .coordinateTransition s config

end Starts

namespace Grows

theorem perform (s : Session) (e : Entrance) : s.Grows (s.perform e).1 := by
  unfold Session.perform
  dsimp only
  split
  · exact .refl s
  split
  · have started := Starts.executeTransition s e.config
    generalize s.executeTransition e.config = result at *
    obtain ⟨t, fault | answer⟩ := result
    · exact started.grows
    · refine (started.grows.trans (.spawn t _)).trans (.track _ ⟨t.begun_spawn ?_, ?_⟩ _)
      · cases answer <;> simp [afterTransition, Frame.isWork]
      · intro id member
        have awaits := t.awaited_spawn [afterTransition answer, .enterState e.target]
        rw [show (t.spawn _).1.awaited _ = _ from awaits] at member
        cases answer with
        | none => cases member
        | some first =>
          rw [List.mem_singleton.mp member]
          exact (started.launched first rfl).own.later (.spawn ..)
  · have started := Starts.executeState s (s.store.field e.target "do")
    generalize s.executeState (s.store.field e.target "do") = result at *
    obtain ⟨t, fault | (_ | id)⟩ := result
    · exact started.grows
    · exact started.grows
    · exact started.grows.trans (.track _ (started.launched id rfl) _)

theorem performAny (s : Session) (entrance : Option Entrance) : s.Grows (s.performAny entrance).1 := by
  cases entrance with
  | none => exact .refl s
  | some e => exact .perform s e

theorem load (s : Session) (model : Value) : s.Grows (s.load model).1 := by
  unfold Session.load
  split
  · exact .refl s
  · exact .machine s _ _

theorem setRunning (s : Session) (on : Bool) : s.Grows (s.setRunning on).1 := by
  unfold Session.setRunning
  split
  · exact .refl s
  · exact (Grows.machine s _ _).trans (.performAny _ _)

theorem reset (s : Session) : s.Grows s.reset := by
  unfold Session.reset
  split
  · exact .refl s
  · exact .machine s _ _

theorem fire (s : Session) (name : Value) : s.Grows (s.fire name).1 := by
  unfold Session.fire
  split
  · exact .refl s
  · dsimp only
    split
    · exact .machine s _ _
    · exact (Grows.machine s _ _).trans (.performAny _ _)

theorem act (s : Session) (action : Action) (request : Request) : s.Grows (s.act action request).1 := by
  cases action with
  | compute run => exact .store s _
  | fire event =>
    rw [fst_act]
    exact .fire s _
  | defer => exact .refl s

theorem coordinator (s : Session) {coordinator : Coordinator} (grown : s.coordinator.Extends coordinator) :
    s.Grows { s with coordinator } :=
  .aside rfl rfl rfl rfl rfl rfl grown

theorem beginCall (s : Session) (place : Nat) (m : Method) (params : List Value) :
    s.Grows (s.beginCall place m params).1 := by
  have counted : s.Grows { s with coordinator := s.coordinator.count m.counter } := .coordinator s ⟨id, id, fun _ => ⟨rfl, rfl⟩, rfl⟩
  exact counted.trans (.note _ _)

theorem calls {s : Session} {script : Script} {request : Request} {direct : Bool} {result : Session × Reply}
    (calls : s.Calls script request direct result) : s.Grows result.1 := by
  cases calls with
  | defer => exact .defer s
  | late => exact .spawn s _
  | settled _ outcome => exact (Grows.act s _ request).trans (.settled _ outcome)
  | steps => exact .refl s
  | stopped | plain | raised => exact .act s _ request

theorem execute (s : Session) (place : Nat) (name : Value) (params : List Value) :
    s.Grows (s.execute place name params).1 := by
  have responds := s.responds_execute place name params
  generalize s.execute place name params = result at responds ⊢
  cases responds with
  | refused => exact .refl s
  | called _ _ _ calls => exact (Grows.beginCall s place _ params).trans (.calls calls)

theorem expose (s : Session) (place : Nat) (name : Value) (label : String) (script : Script) :
    s.Grows (s.expose place name label script).1 := by
  unfold Session.expose
  split
  · exact .refl s
  · exact (Grows.coordinator s (.expose _ place _)).trans (.log _ _)

theorem addService (s : Session) (service : Service) (methods : List (String × Script)) :
    s.Grows (s.addService service methods).1 := by
  have exposed (methods : List (String × Script)) (place : Nat) (t : Session) :
      t.Grows (methods.foldl (fun s m => (s.expose place (.text m.1) m.1 m.2).1) t) := by
    induction methods generalizing t with
    | nil => exact .refl t
    | cons method rest ih => exact (Grows.expose t place _ _ _).trans (ih _)
  exact (Grows.coordinator s (.addService _ service)).trans (exposed methods _ _)

theorem register (s : Session) (name : Value) (place : Option Nat) : s.Grows (s.register name place).1 := by
  unfold Session.register
  split
  · exact .refl s
  next registered => exact (Grows.coordinator s (.register registered)).trans (.log _ _)

theorem spawnAll (s : Session) (tasks : List (List Frame)) :
    s.Grows { s with schedule := s.schedule.spawnAll tasks } := by
  induction tasks generalizing s with
  | nil => exact .refl s
  | cons frames rest ih => exact (Grows.spawn s frames).trans (ih (s.spawn frames).1)

end Grows

/-- Whatever was there before is there as before. -/
structure Extends (s t : Session) : Prop where
  schedule : s.schedule.Extends t.schedule
  turn : t.turn = s.turn
  tracked : s.tracked ⊆ t.tracked
  launched : ∀ id ∈ t.tracked, id ∈ s.tracked ∨ t.Launched id
  behavior : t.behavior = s.behavior
  coordinator : s.coordinator.Extends t.coordinator

theorem Extends.trans {s t u : Session} (first : s.Extends t) (last : t.Extends u) : s.Extends u where
  schedule := first.schedule.trans last.schedule
  turn := last.turn.trans first.turn
  tracked _ member := last.tracked (first.tracked member)
  launched id member := by
    rcases last.launched id member with old | new
    · exact (first.launched id old).imp_right fun launched => launched.later last.schedule
    · exact Or.inr new
  behavior := last.behavior.trans first.behavior
  coordinator := first.coordinator.trans last.coordinator

theorem Extends.untracked {s t : Session} (schedule : s.schedule.Extends t.schedule) (turn : t.turn = s.turn)
    (tracked : t.tracked = s.tracked) (behavior : t.behavior = s.behavior)
    (coordinator : s.coordinator.Extends t.coordinator) : s.Extends t :=
  ⟨schedule, turn, tracked ▸ fun _ member => member, fun _ member => Or.inl (tracked ▸ member), behavior, coordinator⟩

theorem Grows.extends {s t : Session} (grows : s.Grows t) : s.Extends t := by
  induction grows with
  | aside schedule turn tracked deferred asked behavior coordinator =>
    exact .untracked (schedule ▸ .refl _) turn tracked behavior coordinator
  | spawn s frames => exact .untracked (.spawn _ frames) rfl rfl rfl (.refl _)
  | settled s outcome => exact .untracked (.add _ _ rfl) rfl rfl rfl (.refl _)
  | defer s => exact .untracked (.add _ _ rfl) rfl rfl rfl (.refl _)
  | ask s => exact .untracked (.add _ _ rfl) rfl rfl rfl (.refl _)
  | join s inside patient => exact .untracked (.join _ inside patient) rfl rfl rfl (.refl _)
  | @track s id launched name =>
    have watched := Schedule.Extends.watch s.schedule launched.own.inside name
    refine ⟨watched, rfl, ?_, ?_, rfl, .refl _⟩
    · intro other member
      simp only [Session.track]
      split
      · exact member
      · exact List.mem_append_left _ member
    · intro other member
      simp only [Session.track] at member
      split at member
      · exact Or.inl member
      · rcases List.mem_append.mp member with old | new
        · exact Or.inl old
        · rw [List.mem_singleton.mp new]
          exact Or.inr (launched.later watched)
  | trans _ _ first last => exact first.trans last

/-- The tasks that map parameters one by one. -/
def itemTasks (mapping : Value) (items : List (Value × Nat)) : List (List Frame) :=
  items.map fun (value, index) => [.mapItem mapping index value]

theorem foldl_spawn (mapping : Value) (items : List (Value × Nat)) (s : Session) (ids : List Nat) :
    items.foldl (fun (s, members) (value, index) =>
      let (s, id) := s.spawn [.mapItem mapping index value]
      (s, members ++ [id])) (s, ids) =
    ({ s with schedule := s.schedule.spawnAll (itemTasks mapping items) },
      ids ++ List.range' s.schedule.promises.size items.length) := by
  induction items generalizing s ids with
  | nil => simp [Schedule.spawnAll, itemTasks]
  | cons item rest ih =>
    have fresh : (s.spawn [.mapItem mapping item.2 item.1]).2 = s.schedule.promises.size := rfl
    have size := s.schedule.size_spawn [Frame.mapItem mapping item.2 item.1]
    rw [List.foldl_cons]
    apply (ih (s.spawn [.mapItem mapping item.2 item.1]).1 (ids ++ [(s.spawn [.mapItem mapping item.2 item.1]).2])).trans
    rw [fresh, List.append_assoc, List.length_cons, List.range'_succ, ← size]
    rfl

/-- The tasks that parameters are mapped by are there before they are waited for. -/
theorem member_spawned (s : Session) (mapping : Value) {values : List Value} {member : Nat}
    (isMember : member ∈ List.range' s.schedule.promises.size values.length) :
    member < (s.schedule.spawnAll (itemTasks mapping values.zipIdx)).promises.size := by
  rw [Schedule.size_spawnAll, itemTasks, List.length_map, List.length_zipIdx]
  exact (List.mem_range'_1.mp isMember).2

/-- Parameters are mapped by one task each, and the tasks are waited for together. -/
theorem mapEach_eq (s : Session) (mapping : Value) (values : List Value) (frames : List Frame) :
    s.mapEach mapping values frames = match s.store.items? mapping with
      | none | some [] => (s, .go frames values)
      | some (_ :: _) =>
        let join := (s.schedule.spawnAll (itemTasks mapping values.zipIdx)).join
          (List.range' s.schedule.promises.size values.length) false
        ({ s with schedule := join.1 }, .await join.2 frames) := by
  unfold mapEach
  cases items : s.store.items? mapping with
  | none => rfl
  | some list =>
    cases list with
    | nil => rfl
    | cons first rest =>
      dsimp only
      rw [foldl_spawn, List.length_zipIdx, List.nil_append]
      rfl

namespace Grows

variable {s : Session}

theorem mapEach (s : Session) (mapping : Value) (values : List Value) (frames : List Frame) :
    s.Grows (s.mapEach mapping values frames).1 := by
  rw [mapEach_eq]
  split
  · exact .refl s
  · exact .refl s
  · exact (Grows.spawnAll s _).trans (.join _ (fun member isMember => s.member_spawned mapping isMember) false)

theorem callTarget (s : Session) (target : Target) (values : List Value) : s.Grows (s.callTarget target values).1 := by
  have executed := (Grows.log s _).trans (.execute (s.announceCall target values) target.service (.text target.method) values)
  unfold Session.callTarget
  dsimp only
  generalize (s.announceCall target values).execute target.service (.text target.method) values = result at *
  obtain ⟨t, reply⟩ := result
  cases reply <;> exact executed

theorem place (s : Session) (config : Value) (whole : Bool) (values : List Value) :
    s.Grows (s.place config whole values).1 := by
  obtain ⟨_, _, _, same, _⟩ := s.place_made config whole values
  rw [same]
  exact .aside rfl rfl rfl rfl rfl rfl ⟨id, id, fun _ => ⟨rfl, rfl⟩, rfl⟩

theorem afterLine {text : String} {result : Session × Except Fault Unit} (grown : s.Grows result.1) :
    s.Grows (afterLine text result).1 := by
  unfold Session.afterLine
  split
  · exact grown
  · split
    · exact grown.trans (.log _ _)
    · exact grown

theorem handleLine (s : Session) (text : String) : s.Grows (s.handleLine text).1 := by
  unfold Session.handleLine
  dsimp only
  split
  · exact .refl s
  · split
    · exact .log s _
    · exact .log s _
    · exact .afterLine (.setRunning s true)
    · exact .afterLine (.setRunning s false)
    · exact .reset s
    · exact .refl s
    · exact .afterLine (.fire s _)

/-- All but the end of the step of a task. What is tracked is waited for by a drain. -/
theorem acting {frame : Frame} {values : List Value} {t : Session} (acting : s.Acting values frame t)
    (tracked : ∀ id ∈ s.tracked, id < s.schedule.promises.size) : s.Grows t := by
  cases acting with
  | idle => exact .refl s
  | map _ mapping items next => exact .mapEach s mapping items next
  | call target => exact .callTarget s target values
  | place config whole => exact .place s config whole values
  | enter target => exact (Starts.executeState s (s.store.field target "do")).grows
  | act action request => exact .act s action request
  | drain among => exact .join s (fun member isMember => tracked member (among member isMember)) true
  | ask => exact .ask s
  | line text => exact .handleLine s text
  | announce => exact .log s _
  | stop => exact .setRunning s false
  | stopped => exact .log s _

theorem takeStep (s : Session) (frame : Frame) (values : List Value)
    (tracked : ∀ id ∈ s.tracked, id < s.schedule.promises.size) : s.Grows (s.takeStep frame values).1 :=
  .acting (s.acting_step frame values) tracked

theorem reportBehavior (s : Session) (name : Value) (id : Nat) :
    Grows { s with tracked := s.tracked.erase id } (s.reportBehavior name id) := by
  unfold Session.reportBehavior
  dsimp only
  split
  · exact .log _ _
  · exact .refl _

end Grows

end Session

end Interaction
