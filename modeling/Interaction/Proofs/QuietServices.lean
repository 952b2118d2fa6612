import Interaction.Proofs.PurposeTasks

/-! Quiet work. Services that do not call the machine start no task that does, and neither does
behaviour; and a step of such a task leads to such steps. -/

namespace Interaction

/-- Whether an action leaves the machine alone. -/
def Action.isQuiet : Action → Bool
  | .fire _ => false
  | _ => true

/-- Whether a step neither asks the machine for anything nor handles lines of input. -/
def Frame.isQuiet : Frame → Bool
  | .act action _ => action.isQuiet
  | .ask | .hear | .line _ | .onward | .announce | .stop | .stopped => false
  | _ => true

def Hushed (frames : List Frame) : Prop :=
  ∀ frame ∈ frames, frame.isQuiet = true

/-- Whether no method of a service calls the machine. -/
def Coordinator.Quiet (c : Coordinator) : Prop :=
  ∀ place, ∀ m ∈ (c.service place).methods, m.script.action.isQuiet = true

namespace Session

/-- Whether an operation leaves the services as they are, asks for no line of input, and starts no task
that calls the machine unless a service does. -/
structure Tames (s t : Session) : Prop where
  grows : s.Grows t
  services : t.coordinator.services = s.coordinator.services
  asked : t.asked = s.asked
  hushed : s.coordinator.Quiet → ∀ id frames, s.schedule.promises.size ≤ id →
    t.schedule.origin? id = some (.task frames) → Hushed frames

variable {s t u : Session}

theorem quiet_congr {c d : Coordinator} (services : d.services = c.services) (quiet : c.Quiet) : d.Quiet := by
  intro place m member
  rw [Coordinator.service, services] at member
  exact quiet place m member

theorem hushed_late (turns : Nat) {action : Action} (request : Request) (quiet : action.isQuiet = true) :
    Hushed (lateSteps turns action request) := by
  intro frame member
  rcases List.mem_append.mp member with first | last
  · rw [List.eq_of_mem_replicate first]
    rfl
  · rw [List.mem_singleton.mp last]
    exact quiet

namespace Tames

theorem aside (grows : s.Grows t) (schedule : t.schedule = s.schedule) (services : t.coordinator.services = s.coordinator.services)
    (asked : t.asked = s.asked) : s.Tames t := by
  refine ⟨grows, services, asked, fun _ id frames new held => ?_⟩
  rw [schedule] at held
  exact absurd (Schedule.origin?_inside held) (Nat.not_lt_of_le new)

theorem refl (s : Session) : s.Tames s :=
  .aside (.refl s) rfl rfl rfl

theorem trans (first : s.Tames t) (last : t.Tames u) : s.Tames u := by
  refine ⟨first.grows.trans last.grows, last.services.trans first.services, last.asked.trans first.asked, fun quiet id frames new held => ?_⟩
  by_cases inside : id < t.schedule.promises.size
  · rw [last.grows.extends.schedule.origin inside] at held
    exact first.hushed quiet id frames new held
  · exact last.hushed (quiet_congr first.services quiet) id frames (Nat.le_of_not_lt inside) held

theorem note (s : Session) (o : Occurrence) : s.Tames (s.note o) :=
  .aside (.note s o) rfl rfl rfl

theorem log (s : Session) (r : Record) : s.Tames (s.log r) :=
  .note s _

theorem logAll (s : Session) (rs : List Record) : s.Tames (s.logAll rs) := by
  induction rs generalizing s with
  | nil => exact .refl s
  | cons r rs ih => exact (Tames.log s r).trans (ih (s.log r))

/-- A task may be started whose steps are quiet if the services are. -/
theorem spawn (s : Session) {frames : List Frame} (hushed : s.coordinator.Quiet → Hushed frames) :
    s.Tames (s.spawn frames).1 := by
  refine ⟨.spawn s frames, rfl, rfl, fun quiet id steps new held => ?_⟩
  rw [(s.held_spawn new held).2]
  exact hushed quiet

theorem spawnAll (s : Session) {tasks : List (List Frame)} (hushed : ∀ frames ∈ tasks, Hushed frames) :
    s.Tames { s with schedule := s.schedule.spawnAll tasks } := by
  induction tasks generalizing s with
  | nil => exact .refl s
  | cons frames rest ih =>
    have first := Tames.spawn s fun _ => hushed frames (List.mem_cons_self ..)
    exact first.trans (ih (s.spawn frames).1 fun frames member => hushed frames (List.mem_cons_of_mem _ member))

/-- What is no task may be started. -/
theorem added (grows : s.Grows t) (services : t.coordinator.services = s.coordinator.services) (asked : t.asked = s.asked)
    (p : Promise Frame) (simple : ∀ frames, p.origin ≠ .task frames)
    (origins : ∀ id, t.schedule.origin? id = (s.schedule.add p).1.origin? id) : s.Tames t := by
  refine ⟨grows, services, asked, fun _ id frames new held => ?_⟩
  rw [origins, Schedule.origin?_add] at held
  split at held
  · exact absurd (Option.some.inj held) (simple frames)
  · exact absurd (Schedule.origin?_inside held) (Nat.not_lt_of_le new)

theorem settled (s : Session) (outcome : Outcome) : s.Tames (s.settled outcome).1 :=
  .added (.settled s outcome) rfl rfl { origin := .outside, outcome := some outcome } nofun fun _ => rfl

theorem defer (s : Session) : s.Tames s.defer.1 :=
  .added (.defer s) rfl rfl { origin := .outside } nofun fun _ => rfl

theorem join (s : Session) {members : List Nat} (inside : ∀ member ∈ members, member < s.schedule.promises.size)
    (patient : Bool) : s.Tames (s.scheduled (·.join members patient)).1 := by
  by_cases empty : members = []
  · subst empty
    exact .settled s _
  · refine .added (.join s inside patient) rfl rfl { origin := .join members members.length patient } nofun fun id => ?_
    simp only [Session.scheduled, s.schedule.join_members empty patient]
    exact Schedule.origin?_watchAll ..

theorem callService (s : Session) (config given : Value) : s.Tames (s.callService config given).1 := by
  unfold Session.callService
  split
  · exact .refl s
  · exact .spawn s fun _ => by simp [Hushed, Frame.isQuiet]

theorem coordinate (s : Session) (entry : Entry) (config : Value) : s.Tames (s.coordinate entry config).1 := by
  cases entry with
  | transition =>
    rw [Session.coordinate, coordinateTransition]
    split
    · exact .callService s config .null
    · exact .settled s _
  | state =>
    rw [Session.coordinate, coordinateState]
    split
    · exact (Tames.log s _).trans (.settled _ _)
    · split
      · exact .refl s
      · exact .spawn s fun _ => by simp [Hushed, Frame.isQuiet]

theorem answerCanned (s : Session) (answer : Canned) : s.Tames (s.answerCanned answer).1 := by
  cases answer with
  | nothing => exact .refl _
  | done => exact .settled _ _
  | failed => exact .settled _ _
  | defer => exact .defer _
  | refuse => exact .refl _

theorem consult (s : Session) (entry : Entry) (config : Value) : s.Tames (s.consult entry config).1 := by
  have consults := s.consults entry config
  generalize (s.consult entry config).1 = t at consults ⊢
  cases consults with
  | absent => exact .refl s
  | @canned o _ _ answer => exact (Tames.note s o).trans (.answerCanned _ answer)
  | coordinated => exact .coordinate s entry config

theorem perform (s : Session) (e : Entrance) : s.Tames (s.perform e).1 := by
  have grows := Grows.perform s e
  have consulted := Tames.consult s (s.behaviorOf e).1 (s.behaviorOf e).2
  have enacts := s.enacts_perform e
  have track {t : Session} (tames : s.Tames t) {id : Nat} {name : Value} (grows : s.Grows (t.track id name)) :
      s.Tames (t.track id name) := by
    refine ⟨grows, tames.services, tames.asked, fun quiet other frames new held => ?_⟩
    exact tames.hushed quiet other frames new ((Schedule.origin?_watch ..).symm.trans held)
  generalize s.perform e = result, s.follower? e = f at enacts grows ⊢
  cases enacts with
  | absent => exact .refl s
  | raised _ asked | nothing _ _ asked =>
    rw [asked] at consulted
    exact consulted
  | state _ _ asked =>
    rw [asked] at consulted
    exact track consulted grows
  | @transition t answer _ _ asked =>
    rw [asked] at consulted
    refine track (consulted.trans (.spawn t fun _ => ?_)) grows
    cases answer <;> simp [Hushed, afterTransition, Frame.isQuiet]

theorem operate (s : Session) (o : Operation) : s.Tames (s.operate o) := by
  have opened : s.Tames (s.opened o) := by
    unfold Session.opened
    split
    · exact .refl s
    next m _ =>
      have moved : s.Tames { s with machine := some (m.operate s.store o).1 } :=
        .aside (.aside rfl rfl rfl rfl rfl rfl (.refl _)) rfl rfl rfl
      exact moved.trans (.logAll _ _)
  unfold Session.operate
  cases s.entrance? o with
  | none => exact opened
  | some e => exact opened.trans (.perform _ e)

theorem act (s : Session) (action : Action) (request : Request) : s.Tames (s.act action request).1 := by
  cases action with
  | compute run => exact .aside (.store s _) rfl rfl rfl
  | fire event =>
    rw [fst_act, fst_fire]
    exact .operate s _
  | defer => exact .refl s

theorem late (s : Session) (turns : Nat) {action : Action} (request : Request)
    (quiet : s.coordinator.Quiet → action.isQuiet = true) : s.Tames (s.spawn (lateSteps turns action request)).1 :=
  .spawn s fun services => hushed_late turns request (quiet services)

theorem calls {script : Script} {request : Request} {direct : Bool} {result : Session × Reply}
    (calls : s.Calls script request direct result) (quiet : s.coordinator.Quiet → script.action.isQuiet = true) :
    s.Tames result.1 := by
  cases calls with
  | defer => exact .defer s
  | late => exact .late s _ request quiet
  | settled _ outcome => exact (Tames.act s _ request).trans (.settled _ outcome)
  | steps => exact .refl s
  | stopped | plain | raised => exact .act s _ request

theorem execute (s : Session) (place : Nat) (name : Value) (params : List Value) :
    s.Tames (s.execute place name params).1 := by
  have begun (m : Method) : s.Tames (s.beginCall place m params).1 := .aside (.beginCall s place m params) rfl rfl rfl
  have responds := s.responds_execute place name params
  generalize s.execute place name params = result at responds ⊢
  cases responds with
  | refused => exact .refl s
  | @called m _ _ _ _ found calls =>
    exact (begun m).trans (.calls calls fun quiet => quiet place m (List.mem_of_find?_eq_some found))

theorem callTarget (s : Session) (target : Target) (values : List Value) : s.Tames (s.callTarget target values).1 := by
  rw [fst_callTarget]
  exact (Tames.log s _).trans (.execute _ _ _ _)

theorem mapEach (s : Session) (mapping : Value) (values : List Value) (frames : List Frame) :
    s.Tames (s.mapEach mapping values frames).1 := by
  rw [mapEach_eq]
  split
  · exact .refl s
  · exact .refl s
  · refine (Tames.spawnAll s ?_).trans (.join _ ?_ false)
    · intro frames member
      obtain ⟨item, _, rfl⟩ := List.mem_map.mp member
      simp [Hushed, Frame.isQuiet]
    · exact fun member isMember => s.member_spawned mapping isMember

theorem place (s : Session) (config : Value) (whole : Bool) (values : List Value) :
    s.Tames (s.place config whole values).1 := by
  have grows := Grows.place s config whole values
  obtain ⟨_, _, _, same, _⟩ := s.place_made config whole values
  rw [same] at grows ⊢
  exact .aside grows rfl rfl rfl

theorem obeys {o : Option Operation} (obeys : s.Obeys o t) : s.Tames t := by
  cases obeys with
  | idle => exact .refl s
  | quit => exact .log s _
  | operates o => exact .operate s o
  | fails o => exact (Tames.operate s o).trans (.log _ _)

theorem acting {frame : Frame} {values : List Value} (acting : s.Acting values frame t) (other : frame ≠ .ask)
    (tracked : ∀ id ∈ s.tracked, id < s.schedule.promises.size) : s.Tames t := by
  cases acting with
  | idle => exact .refl s
  | map _ mapping items next => exact .mapEach s mapping items next
  | call target => exact .callTarget s target values
  | place config whole => exact .place s config whole values
  | enter target => exact .consult s .state (s.store.field target "do")
  | act action request => exact .act s action request
  | drain among => exact .join s (fun member isMember => tracked member (among member isMember)) true
  | ask => exact absurd rfl other
  | line text => exact .obeys (s.obeys_line text)
  | announce => exact .log s _
  | stop =>
    rw [fst_setRunning]
    exact .operate s (.setRunning false)
  | stopped => exact .log s _

theorem takeStep (s : Session) {frame : Frame} (other : frame ≠ .ask) (values : List Value)
    (tracked : ∀ id ∈ s.tracked, id < s.schedule.promises.size) : s.Tames (s.takeStep frame values).1 :=
  .acting (s.acting_step frame values) other tracked

end Tames

/-- Steps that a quiet service leaves to its caller are quiet. -/
theorem hushed_reply (quiet : s.coordinator.Quiet) {target : Target} {values : List Value} {frames : List Frame}
    (replied : s.reply target values = .steps frames) : Hushed frames := by
  have responds := (s.announceCall target values).responds_execute target.service (.text target.method) values
  rw [reply] at replied
  generalize (s.announceCall target values).execute target.service (.text target.method) values = result at replied responds
  cases responds with
  | refused => cases replied
  | @called m _ _ _ _ found calls =>
    cases calls <;> cases replied
    exact hushed_late _ _ (quiet target.service m (List.mem_of_find?_eq_some found))

/-- A quiet step leads to quiet steps. -/
theorem hushed_step (quiet : s.coordinator.Quiet) {frame : Frame} (own : frame.isQuiet = true) {values : List Value}
    {frames : List Frame} {supply : Supply} (stand : (s.takeStep frame values).2.stand? = some (frames, supply)) :
    Hushed frames := by
  cases leading_step stand with
  | steps replied => exact List.forall_mem_append.mpr ⟨hushed_reply quiet replied, by simp [Frame.isQuiet]⟩
  | _ => simp [Hushed, Frame.isQuiet] at own ⊢

theorem executed?_quiet (quiet : s.coordinator.Quiet) (place : Nat) (name : Value) (params : List Value) :
    s.executed? place name params = none := by
  unfold executed?
  dsimp only
  split
  next m _ _ found =>
    have hushed := quiet place m (List.mem_of_find?_eq_some found)
    unfold called? acted?
    split
    · split
      next fired => simp [fired, Action.isQuiet] at hushed
      · rfl
    · rfl
  · rfl

/-- A quiet step asks the machine for nothing. -/
theorem passed?_quiet (quiet : s.coordinator.Quiet) {frame : Frame} (own : frame.isQuiet = true) (task : Nat)
    (values : List Value) (u : Session) (o : Operation) : s.passed? task frame values ≠ some (.operate u o) := by
  intro passed
  cases frame with
  | act action request =>
    cases action with
    | fire event => cases own
    | _ => cases passed
  | call target =>
    have still : (s.announceCall target values).coordinator.Quiet := quiet
    rw [passed?, executed?_quiet still] at passed
    cases passed
  | line text => cases own
  | stop => cases own
  | _ => cases passed

end Session

end Interaction
