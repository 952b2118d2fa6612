import Interaction.Proofs.Dispatch
import Interaction.Proofs.TransitionWatches

/-! What a machine raises. Its operations raise what its behaviour raises at once and nothing else, unless
the state that it is in has events that cannot be gone through, or one that cannot be compared with what
is fired. Whatever else is amiss in a model is passed over. -/

namespace Interaction

theorem Store.equal_error {s : Store} {v w : Value} {fault : Fault} (failed : s.equal v w = .error fault) : fault = .endless := by
  unfold equal agree at failed
  split at failed
  · cases failed
  · split at failed <;> cases failed
    rfl

namespace Machine

/-- Whether an event is passed over: it can be compared with the name, and if it has it, it leads nowhere. -/
def PassesOver (m : Machine) (s : Store) (name event : Value) : Prop :=
  ∃ fits, hasName s event name = .ok fits ∧ (fits = true → m.state? (s.field event "goto") = none)

/-- Why the events of a state do not tell where a machine goes on. -/
inductive Stumbles (m : Machine) (s : Store) (state name : Value) : Fault → Prop where
  /-- They count as given, and are nothing that can be gone through. -/
  | closed (given : s.truthy (s.field state "events") = true) (none : s.members? (s.field state "events") = none) :
      Stumbles m s state name (.notIterable (s.kind (s.field state "events")))
  /-- One of them cannot be compared with the name. -/
  | nested {before after : List Value} {event : Value} (held : eventsOf s state = .ok (before ++ event :: after))
      (passed : ∀ earlier ∈ before, m.PassesOver s name earlier) (mapping : s.isMapping event = true)
      (endless : s.equal (s.field event "on") name = .error .endless) : Stumbles m s state name .endless

/-- What an operation makes of a machine that enters nothing. -/
def unentered (m : Machine) : Operation → Machine
  | .setRunning on => { m with running := on && (m.running || m.model.isSome && m.current.isSome) }
  | .reset => if m.running then m else { m with current := none }
  | .load _ | .fire _ => m

variable {m : Machine} {s : Store} {name state : Value} {fault : Fault}

theorem leadsTo?_passed {event : Value} (passed : m.PassesOver s name event) (rest : List Value) :
    m.leadsTo? s name (event :: rest) = m.leadsTo? s name rest := by
  obtain ⟨fits, named, nowhere⟩ := passed
  simp only [leadsTo?, named, bind, Except.bind]
  cases fits with
  | false => rfl
  | true => simp only [nowhere rfl]

/-- The search ends with a fault exactly where it comes to an event that cannot be compared. -/
theorem leadsTo?_error {events : List Value} : m.leadsTo? s name events = .error fault ↔
    ∃ before event after, events = before ++ event :: after ∧ (∀ earlier ∈ before, m.PassesOver s name earlier) ∧
      hasName s event name = .error fault := by
  constructor
  · intro failed
    induction events with
    | nil => cases failed
    | cons first rest ih =>
      cases named : hasName s first name with
      | error reason =>
        have same : m.leadsTo? s name (first :: rest) = .error reason := by simp only [leadsTo?, named, bind, Except.bind]
        cases same.symm.trans failed
        exact ⟨[], first, rest, rfl, List.forall_mem_nil _, named⟩
      | ok fits =>
        by_cases nowhere : fits = true → m.state? (s.field first "goto") = none
        · have skipped : m.PassesOver s name first := ⟨fits, named, nowhere⟩
          rw [leadsTo?_passed skipped] at failed
          obtain ⟨before, event, after, rfl, passed, stopped⟩ := ih failed
          exact ⟨first :: before, event, after, rfl, List.forall_mem_cons.mpr ⟨skipped, passed⟩, stopped⟩
        · obtain ⟨rfl, leads⟩ := Classical.not_imp.mp nowhere
          obtain ⟨target, goto⟩ := Option.ne_none_iff_exists'.mp leads
          simp only [leadsTo?, named, goto, bind, Except.bind] at failed
          cases failed
  · rintro ⟨before, event, after, rfl, passed, stopped⟩
    induction before with
    | nil => simp only [List.nil_append, leadsTo?, stopped, bind, Except.bind]
    | cons first rest ih =>
      rw [List.cons_append, leadsTo?_passed (passed first (List.mem_cons_self ..))]
      exact ih fun other member => passed other (List.mem_cons_of_mem first member)

theorem hasName_error {event : Value} : hasName s event name = .error fault ↔
    fault = .endless ∧ s.isMapping event = true ∧ s.equal (s.field event "on") name = .error .endless := by
  unfold hasName
  cases s.isMapping event with
  | false => simp
  | true =>
    simp only [if_true, true_and]
    constructor
    · intro failed
      cases Store.equal_error failed
      exact ⟨rfl, failed⟩
    · rintro ⟨rfl, failed⟩
      exact failed

theorem eventsOf_error : eventsOf s state = .error fault ↔ s.truthy (s.field state "events") = true ∧
    s.members? (s.field state "events") = none ∧ fault = .notIterable (s.kind (s.field state "events")) := by
  unfold eventsOf
  dsimp only
  cases s.truthy (s.field state "events") with
  | false => simp
  | true =>
    cases s.members? (s.field state "events") with
    | none => simp [eq_comm]
    | some events => simp

/-- Firing an event raises a fault exactly if a running machine stumbles over the events of its state. -/
theorem fire_error : (m.fire s name).2.2 = .error fault ↔
    ∃ state, m.running = true ∧ m.current = some state ∧ m.Stumbles s state name fault := by
  unfold fire
  split
  next paused => simp [paused]
  next none _ => simp [none]
  next state running current =>
    have only : (∃ other, m.running = true ∧ m.current = some other ∧ m.Stumbles s other name fault) ↔
        m.Stumbles s state name fault := by simp [running, current]
    rw [only]
    cases held : eventsOf s state with
    | error reason =>
      obtain ⟨given, none, rfl⟩ := eventsOf_error.mp held
      constructor
      · rintro ⟨⟩
        exact .closed given none
      · intro stumbles
        cases stumbles with
        | closed _ _ => rfl
        | nested other _ _ _ => cases held.symm.trans other
    | ok events =>
      have stumbles : m.Stumbles s state name fault ↔ m.leadsTo? s name events = .error fault := by
        rw [leadsTo?_error]
        constructor
        · intro stumbles
          cases stumbles with
          | closed given none => cases held.symm.trans (eventsOf_error.mpr ⟨given, none, rfl⟩)
          | nested other passed mapping endless =>
            cases held.symm.trans other
            exact ⟨_, _, _, rfl, passed, hasName_error.mpr ⟨rfl, mapping, endless⟩⟩
        · rintro ⟨before, event, after, rfl, passed, stopped⟩
          obtain ⟨rfl, mapping, endless⟩ := hasName_error.mp stopped
          exact .nested held passed mapping endless
      rw [stumbles]
      dsimp only
      generalize m.leadsTo? s name events = led
      obtain reason | (_ | e) := led <;> simp

/-- A machine that enters nothing changes only in whether it runs, and in being reset. -/
theorem operate_unentered {o : Operation} (other : ∀ model, o ≠ .load model) (none : m.entrance? s o = none) :
    (m.operate s o).1 = m.unentered o ∧ (m.operate s o).2.1.length ≤ 1 := by
  cases o with
  | load model => exact absurd rfl (other model)
  | setRunning on =>
    obtain ⟨model, index, current, running, limit, history⟩ := m
    cases on with
    | false => cases running <;> simp [operate, setRunning, pause, unentered]
    | true =>
      cases running <;> cases model <;> cases current
      case false.some.none model =>
        simp only [entrance?, operate, setRunning, run, if_true] at none ⊢
        split at none
        · cases none
        · simp [unentered]
      all_goals simp [operate, setRunning, run, unentered]
  | reset =>
    simp only [operate, Machine.reset, unentered]
    cases m.running with
    | true => simp
    | false => cases m.current <;> simp
  | fire name =>
    simp only [entrance?, operate] at none ⊢
    unfold fire at none ⊢
    split
    · simp [unentered]
    · simp [unentered]
    next state running current =>
      rw [running, current] at none
      cases held : eventsOf s state with
      | error reason => simp [unentered]
      | ok events =>
        simp only [held] at none ⊢
        cases led : m.leadsTo? s name events with
        | error reason => simp [unentered]
        | ok entrance =>
          cases entrance with
          | none => simp [unentered]
          | some e => simp [led] at none

end Machine

namespace Session

variable {s : Session} {m : Machine} {o : Operation} {fault : Fault}

theorem consulted_absent {e : Entrance} (absent : s.behavior = .absent) : s.consulted e = .ok none := by
  unfold consulted
  cases (s.behaviorOf e).1 <;> simp only [consult, executeTransition, executeState, absent]

theorem perform_error (e : Entrance) : (s.perform e).2 = .error fault ↔ s.consulted e = .error fault := by
  have undertakes := s.undertakes_perform e
  generalize (s.perform e).2 = answer at undertakes
  generalize s.vigil? e = watched at undertakes
  cases undertakes with
  | absent absent => simp [consulted_absent absent]
  | raised answered => simp [answered]
  | nothing _ answered => simp [answered]
  | state _ answered => simp [answered]
  | transition _ _ _ answered => simp [answered]

/-- An operation that enters nothing raises a fault only where the machine stumbles over events. -/
theorem outcome_unentered (machine : s.machine = some m) (other : ∀ model, o ≠ .load model) (none : s.entrance? o = none) :
    s.outcome o = .error fault ↔ ∃ name, o = .fire name ∧ (m.fire s.store name).2.2 = .error fault := by
  have quiet : m.entrance? s.store o = .none := by
    rw [entrance?, machine] at none
    exact none
  cases o with
  | load model => exact absurd rfl (other model)
  | setRunning on =>
    have idle : (m.setRunning s.store on).2.2 = .none := quiet
    simp only [outcome, setRunning, machine, idle, performAny]
    simp
  | reset => simp [outcome]
  | fire name =>
    simp only [Machine.entrance?, Machine.operate] at quiet
    simp only [outcome, fire, machine, Operation.fire.injEq, exists_eq_left']
    cases answer : (m.fire s.store name).2.2 with
    | error reason => simp
    | ok entrance =>
      rw [answer] at quiet
      cases quiet
      simp [performAny]

theorem operate_idle (machine : s.machine = some m) (other : ∀ model, o ≠ .load model) (none : s.entrance? o = none) :
    ∃ records : List Record, records.length ≤ 1 ∧
      s.operate o = { s with machine := some (m.unentered o), trace := records.map .reported ++ s.trace } := by
  have quiet : m.entrance? s.store o = .none := by
    rw [entrance?, machine] at none
    exact none
  obtain ⟨same, few⟩ := Machine.operate_unentered other quiet
  refine ⟨(m.operate s.store o).2.1.reverse, by rwa [List.length_reverse], ?_⟩
  simp only [operate, none, performAny, opened, machine, same]
  rw [logAll_eq, List.map_reverse]

/-- Running, pausing, resetting a machine and firing events raises what the behaviour raises that is asked
for, and else only the faults of a state whose events cannot be gone through. Only a state that is called
by a text is entered, and only by an event that has the name that is fired; and where nothing is entered,
nothing else becomes of the session than that its machine runs, is paused or is reset. -/
theorem operation_raises (s : Session) {m : Machine} (machine : s.machine = some m) (o : Operation)
    (other : ∀ model, o ≠ .load model) :
    (∀ fault, s.outcome o = .error fault ↔
      (∃ e, s.entrance? o = some e ∧ (s.opened o).consulted e = .error fault) ∨
      ∃ name state, o = .fire name ∧ m.running = true ∧ m.current = some state ∧ m.Stumbles s.store state name fault) ∧
    (∀ e, s.entrance? o = some e → ∃ key, m.EntersAs s.store o key ∧ m.index.get? (.text key) = some e.target) ∧
    (s.entrance? o = none → ∃ records : List Record, records.length ≤ 1 ∧
      s.operate o = { s with machine := some (m.unentered o), trace := records.map .reported ++ s.trace }) := by
  refine ⟨fun fault => ?_, fun e entered => ?_, operate_idle machine other⟩
  · cases entered : s.entrance? o with
    | none =>
      rw [outcome_unentered machine other entered]
      simp only [Machine.fire_error, reduceCtorEq, false_and, exists_false, false_or]
      exact exists_congr fun name => exists_and_left.symm
    | some e =>
      rw [outcome_entered entered, perform_error]
      have sure : ¬ ∃ name state, o = .fire name ∧ m.running = true ∧ m.current = some state ∧
          m.Stumbles s.store state name fault := by
        rintro ⟨name, state, rfl, running, current, stumbles⟩
        have failed := Machine.fire_error.mpr ⟨state, running, current, stumbles⟩
        simp [entrance?, machine, Machine.entrance?, Machine.operate, failed] at entered
      rw [or_iff_left sure]
      simp
  · have enters : m.entrance? s.store o = some e := by
      rw [entrance?, machine] at entered
      exact entered
    exact (enters ▸ m.operates s.store o).enters

/-- A machine whose behaviour refuses whatever it is asked for, in a state with all kinds of things among
its events. -/
private def cluttered : Session where
  store := { cells := #[
    .map [(.text "initial", .text "A"), (.text "states", .tuple [.ref 1, .ref 2])],
    .map [(.text "name", .text "A"), (.text "events", .tuple [.null, .text "go", .ref 3, .ref 4, .ref 5])],
    .map [(.text "name", .text "B")],
    .map [(.text "on", .int 3), (.text "goto", .text "B")],
    .map [(.text "on", .text "go"), (.text "goto", .ref 2)],
    .map [(.text "on", .text "go"), (.text "goto", .text "B")]] }
  behavior := .canned .refuse .refuse
  machine := some { model := some (.ref 0), index := [(.text "A", .ref 1), (.text "B", .ref 2)], current := some (.ref 1)
                    running := true }

theorem cluttered_raises : cluttered.machine.isSome = true ∧ (∀ model, Operation.fire (.text "go") ≠ .load model) ∧
    cluttered.outcome (.fire (.text "go")) = .error (.raised .runtime "stub refuses") := by
  have other (model : Value) : Operation.fire (.text "go") ≠ .load model := by simp
  refine ⟨rfl, other, ?_⟩
  obtain ⟨raises, -, -⟩ := cluttered.operation_raises rfl (.fire (.text "go")) other
  exact (raises _).mpr (Or.inl ⟨_, rfl, rfl⟩)

/-- A model whose only state has a number for its events. -/
private def tallied : Session where
  store := { cells := #[
    .map [(.text "initial", .text "A"), (.text "states", .tuple [.ref 1])],
    .map [(.text "name", .text "A"), (.text "events", .int 5)]] }
  machine := some {}

/-- The model is loaded and its state is entered, but no event can be fired there, though nobody is asked
for any behaviour. -/
theorem counted_events_raise : (tallied.load (.ref 0)).2 = .ok true ∧
    let s := (tallied.load (.ref 0)).1
    (s.setRunning true).2 = .ok () ∧ (s.setRunning true).1.behavior = .absent ∧
      ((s.setRunning true).1.fire (.text "go")).2 = .error (.notIterable "int") :=
  ⟨rfl, rfl, rfl, rfl⟩

end Session

end Interaction
