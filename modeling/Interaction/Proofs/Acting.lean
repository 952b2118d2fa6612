import Interaction.Session.Step

/-! What a step does to the session, before its task moves on. Many steps only look at it, and each of
the others does one thing that a session can do by itself. What all steps keep is proved from these. -/

namespace Interaction

/-- Whether a step turns to nobody else. The others call services, ask the factory for situations, or
lead the machine from state to state. -/
def Frame.isInward : Frame → Bool
  | .call _ | .place _ _ | .enterState _ | .act _ _ | .line _ | .stop => false
  | _ => true

namespace Session

theorem fst_invoke (s : Session) (config given : Value) : (s.invoke config given).1 = s := by
  unfold invoke fetch
  split
  · rfl
  · split
    · split <;> rfl
    · rfl
    · rfl

/-- A configuration's parameters cannot be resolved, come from another call first, or are there. -/
theorem fetch_cases (s : Session) (config : Value) (given : List Value) (derived : List Frame)
    (next : Session → List Value → Session × Move) :
    (∃ fault, s.fetch config given derived next = (s, .fail fault)) ∨
      (∃ inner, s.store.source (s.store.field config "parameters") = .derived inner ∧
        s.fetch config given derived next = (s, .go (.invoke inner .null :: derived) [])) ∨
      ∃ values, s.fetch config given derived next = next s values := by
  unfold fetch
  split
  · split
    next fault _ => exact Or.inl ⟨fault, rfl⟩
    next values _ => exact Or.inr (Or.inr ⟨values, rfl⟩)
  next inner source => exact Or.inr (Or.inl ⟨inner, source, rfl⟩)
  · exact Or.inr (Or.inr ⟨given, rfl⟩)

/-- The parameters of a situation are mapped, or stay as a call has given them. -/
theorem arrange_cases (s : Session) (config : Value) (values : List Value) :
    s.arrange config values = (s, .go [.place config true] values) ∨
      ∃ items, s.arrange config values =
        s.mapEach (s.store.field config "parameterMapping") items [.place config false] := by
  unfold arrange
  dsimp only
  split
  next items _ _ _ _ => exact Or.inr ⟨items, rfl⟩
  · exact Or.inl rfl

theorem fst_callTarget (s : Session) (target : Target) (values : List Value) :
    (s.callTarget target values).1 =
      ((s.announceCall target values).execute target.service (.text target.method) values).1 := by
  unfold callTarget
  dsimp only
  generalize (s.announceCall target values).execute target.service (.text target.method) values = result
  obtain ⟨t, reply⟩ := result
  cases reply <;> rfl

theorem fst_act (s : Session) (event : Option Value) (request : Request) :
    (s.act (.fire event) request).1 = (s.fire (event.getD request.first)).1 := by
  rw [act]
  split
  next same => rw [same]
  next same => rw [same]

theorem takeStep_act (s : Session) (action : Action) (request : Request) (values : List Value) :
    s.takeStep (.act action request) values = ((s.act action request).1, match (s.act action request).2 with
      | .ok v => .go [] [v]
      | .error fault => .fail fault.ofTask) := by
  rw [takeStep]
  split
  next same => rw [same]
  next same => rw [same]

theorem promised_settled {s : Session} {answer : Except Fault Value} (taken : stops answer = false) :
    s.promised answer = ((s.settled (answer.map fun v => [v])).1, .promise (s.settled (answer.map fun v => [v])).2) := by
  simp only [promised, taken, Bool.false_eq_true, if_false]

theorem promised_stopped {s : Session} {answer : Except Fault Value} (stopped : stops answer = true) :
    s.promised answer = (s, .fault .unpromised) := by
  simp only [promised, stopped, if_true]

/-- What a call does to the session, and how it is replied to. Only methods that are called directly leave steps
or values to the caller. -/
inductive Calls (s : Session) (script : Script) (request : Request) : Bool → Session × Reply → Prop where
  | defer {direct : Bool} (defers : script.action = .defer) : Calls s script request direct (s.defer.1, .promise s.defer.2)
  | late {turns : Nat} (later : script.turns = some turns) :
      Calls s script request false ((s.spawn (lateSteps turns script.action request)).1,
        .promise (s.spawn (lateSteps turns script.action request)).2)
  | stopped (alone : script.turns = none) : Calls s script request false ((s.act script.action request).1, .fault .unpromised)
  | settled (alone : script.turns = none) (outcome : Outcome) :
      Calls s script request false (((s.act script.action request).1.settled outcome).1,
        .promise ((s.act script.action request).1.settled outcome).2)
  | steps {turns : Nat} (later : script.turns = some turns) :
      Calls s script request true (s, .steps (lateSteps turns script.action request))
  | plain (alone : script.turns = none) (v : Value) : Calls s script request true ((s.act script.action request).1, .plain v)
  | raised (alone : script.turns = none) (fault : Fault) :
      Calls s script request true ((s.act script.action request).1, .fault fault)

theorem calls_wrapped (s : Session) (script : Script) (request : Request) :
    s.Calls script request false (s.callWrapped script request) := by
  rw [callWrapped]
  split
  next defers => exact .defer defers
  next later _ => exact .late later
  next alone _ =>
    dsimp only
    cases stopped : stops (s.act script.action request).2 with
    | true =>
      rw [promised_stopped stopped]
      exact .stopped alone
    | false =>
      rw [promised_settled stopped]
      exact .settled alone _

theorem calls_direct (s : Session) (script : Script) (request : Request) :
    s.Calls script request true (s.callDirect script request) := by
  rw [callDirect]
  split
  next defers => exact .defer defers
  next later _ => exact .steps later
  next alone _ =>
    split
    next t v acted =>
      obtain rfl : _ = t := congrArg Prod.fst acted
      exact .plain alone v
    next t fault acted =>
      obtain rfl : _ = t := congrArg Prod.fst acted
      exact .raised alone fault

/-- What executing a method by its name does to the session, and how it is replied to. -/
inductive Responds (s : Session) (place : Nat) (name : Value) (params : List Value) : Session × Reply → Prop where
  | refused (fault : Fault) (unable : (s.coordinator.service place).isExecutable = true → s.checkName name = .ok () →
      (s.coordinator.service place).method? name = none) : Responds s place name params (s, .fault fault)
  | called {m : Method} {direct : Bool} {result : Session × Reply}
      (able : (s.coordinator.service place).isExecutable = true) (named : s.checkName name = .ok ())
      (found : (s.coordinator.service place).method? name = some m)
      (calls : (s.beginCall place m params).1.Calls m.script (s.beginCall place m params).2 direct result) :
      Responds s place name params result

theorem responds_execute (s : Session) (place : Nat) (name : Value) (params : List Value) :
    s.Responds place name params (s.execute place name params) := by
  unfold execute
  dsimp only
  cases execution : (s.coordinator.service place).execution with
  | missing => exact .refused _ fun able => by simp [Service.isExecutable, execution] at able
  | inert kind => exact .refused _ fun able => by simp [Service.isExecutable, execution] at able
  | wrapped | direct =>
    have able : (s.coordinator.service place).isExecutable = true := by simp [Service.isExecutable, execution]
    cases named : s.checkName name with
    | error fault => exact .refused fault fun _ valid => by cases named.symm.trans valid
    | ok valid =>
      cases found : (s.coordinator.service place).method? name with
      | none => exact .refused _ fun _ _ => found
      | some m => first | exact .called able named found (calls_wrapped ..) | exact .called able named found (calls_direct ..)

/-- A factory takes down what it is asked for, and writes into the data context, at most. It reports no
errors. -/
theorem callFactory_made (s : Session) (again : Bool) (situation : Value) (params : Datum) :
    ∃ store more, (s.callFactory again situation params).1 = { s with store, trace := more ++ s.trace } ∧
      ∀ r : Record, .reported r ∈ more → r.level ≠ Level.error := by
  have none : ∀ r : Record, Occurrence.reported r ∈ [] → r.level ≠ Level.error := fun _ member => absurd member List.not_mem_nil
  unfold callFactory
  split
  · exact ⟨_, [], rfl, none⟩
  · exact ⟨_, [], rfl, none⟩
  · exact ⟨_, [], rfl, none⟩
  · refine ⟨_, [.reported _], rfl, fun r member => ?_⟩
    cases List.mem_singleton.mp member
    exact (by decide : (Level.info : Int) ≠ Level.error)
  · dsimp only
    obtain ⟨o, same, other⟩ : ∃ o, (if again then Occurrence.refreshed (s.datum situation) params
        else .created (s.datum situation) params) = o ∧ ∀ r, o ≠ .reported r := ⟨_, rfl, by cases again <;> simp⟩
    have noted : ∀ r : Record, .reported r ∈ [o] → r.level ≠ Level.error :=
      fun r member => absurd (List.mem_singleton.mp member).symm (other r)
    rw [same]
    split
    · exact ⟨_, [o], rfl, noted⟩
    · exact ⟨_, [o], rfl, noted⟩
    · exact ⟨_, [o], rfl, noted⟩
    · split
      · exact ⟨_, [o], rfl, noted⟩
      · exact ⟨_, [o], rfl, noted⟩

/-- When a situation is handed over, the coordinator keeps in mind what has been created, at most. -/
theorem place_made (s : Session) (config : Value) (whole : Bool) (values : List Value) :
    ∃ store more created, (s.place config whole values).1 =
        { s with store, trace := more ++ s.trace, coordinator := { s.coordinator with created } } ∧
      ∀ r : Record, .reported r ∈ more → r.level ≠ Level.error := by
  unfold place
  dsimp only
  generalize record : Record.behavior _ _ = r
  obtain ⟨store, more, called, calm⟩ := callFactory_made (s.log r) (s.isCurrent config) (s.store.field config "situation")
    (if whole then s.datum (values.head?.getD .null) else .list (values.map s.datum))
  have calm : ∀ r' : Record, .reported r' ∈ more ++ [.reported r] → r'.level ≠ Level.error := by
    intro r' member
    rcases List.mem_append.mp member with late | first
    · exact calm r' late
    · cases List.mem_singleton.mp first
      rw [← record]
      exact (by decide : (Level.debug : Int) ≠ Level.error)
  generalize callFactory _ _ _ _ = result at called ⊢
  obtain ⟨t, answer⟩ := result
  obtain rfl := called
  -- What is taken down first is the report on the situation itself.
  have last : more ++ (s.log r).trace = (more ++ [.reported r]) ++ s.trace := by
    rw [List.append_assoc]
    rfl
  rw [last]
  cases answer with
  | error fault => exact ⟨_, _, _, rfl, calm⟩
  | ok done =>
    dsimp only
    split
    · exact ⟨_, _, _, rfl, calm⟩
    · exact ⟨_, _, _, rfl, calm⟩

/-- What a step does to the session, if anything. -/
inductive Acting (s : Session) (values : List Value) : Frame → Session → Prop where
  | idle {frame : Frame} (inward : frame.isInward = true) : Acting s values frame s
  | map {frame : Frame} (inward : frame.isInward = true) (mapping : Value) (items : List Value) (next : List Frame) :
      Acting s values frame (s.mapEach mapping items next).1
  | call (target : Target) : Acting s values (.call target) (s.callTarget target values).1
  | place (config : Value) (whole : Bool) : Acting s values (.place config whole) (s.place config whole values).1
  | enter (target : Value) : Acting s values (.enterState target) (s.executeState (s.store.field target "do")).1
  | act (action : Action) (request : Request) : Acting s values (.act action request) (s.act action request).1
  | drain {members : List Nat} (tracked : ∀ member ∈ members, member ∈ s.tracked) :
      Acting s values .drain (s.scheduled (·.join members true)).1
  | ask : Acting s values .ask s.ask.1
  | line (text : String) : Acting s values (.line text) (s.handleLine text).1
  | announce : Acting s values .announce s.announce
  | stop : Acting s values .stop (s.setRunning false).1
  | stopped : Acting s values .stopped (s.log (.runner Level.info "=== AAIM runtime stopped ==="))

theorem acting_step (s : Session) (frame : Frame) (values : List Value) :
    s.Acting values frame (s.takeStep frame values).1 := by
  cases frame with
  | invoke config given =>
    rw [takeStep, fst_invoke]
    exact .idle rfl
  | map target => exact .map rfl ..
  | call target => exact .call target
  | follow config =>
    rw [takeStep, followCall]
    split <;> exact .idle rfl
  | mapItem mapping index value =>
    rw [takeStep]
    split <;> exact .idle rfl
  | materialize config =>
    rw [takeStep, materialize]
    rcases s.fetch_cases config [] [.arrange config] _ with ⟨fault, same⟩ | ⟨inner, _, same⟩ | ⟨given, same⟩ <;> rw [same]
    · exact .idle rfl
    · exact .idle rfl
    · exact .map rfl ..
  | arrange config =>
    rw [takeStep]
    rcases s.arrange_cases config values with same | ⟨items, same⟩ <;> rw [same]
    · exact .idle rfl
    · exact .map rfl ..
  | place config whole => exact .place config whole
  | await promise => exact .idle rfl
  | enterState target =>
    have entered : s.Acting values _ _ := .enter target
    rw [takeStep]
    split <;> simp_all only
  | pause => exact .idle rfl
  | act action request =>
    rw [takeStep_act]
    exact .act action request
  | drain =>
    rw [takeStep, Session.drain]
    split
    · exact .idle rfl
    · exact .drain fun member isMember => (List.mem_filter.mp isMember).1
  | ask => exact .ask
  | hear =>
    simp only [takeStep]
    split <;> exact .idle rfl
  | line text => exact .line text
  | onward =>
    simp only [takeStep]
    split <;> exact .idle rfl
  | announce => exact .announce
  | stop =>
    have paused : s.Acting values _ _ := .stop
    rw [takeStep]
    split <;> simp_all only
  | stopped => exact .stopped
  | fail fault => exact .idle rfl

end Session

end Interaction
