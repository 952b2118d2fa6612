import Interaction.Proofs.Nesting
import Interaction.Session.Behavior

/-! Validation is exact: it looks up a call before the calls nested in it, and reports
the flaw of the first one that has any. Nothing has happened then. -/

namespace Interaction

namespace Store

/-- The method that a call asks for. -/
def Names (s : Store) (config : Value) (method : String) : Prop :=
  s.field config "name" = .text method ∧ method ≠ ""

/-- The service that a call asks for: the default one if it asks for none. -/
def Aims (s : Store) (config : Value) : Option String → Prop
  | none => s.field config "service" = .null
  | some name => s.field config "service" = .text name ∧ name ≠ ""

end Store

namespace Coordinator

/-- What is wrong with a call by itself. -/
inductive Flaw (c : Coordinator) (s : Store) (config : Value) : ConfigurationFault → Prop where
  | noName (bad : ∀ method, ¬ s.Names config method) : Flaw c s config .noName
  | badService {method : String} (named : s.Names config method) (bad : ∀ name, ¬ s.Aims config name) :
      Flaw c s config .badService
  | noService {method : String} {name : Option String} (named : s.Names config method)
      (aimed : s.Aims config name) (absent : c.find? name = none) : Flaw c s config (.noService name)
  | notProvided {method : String} {name : Option String} {place : Nat} (named : s.Names config method)
      (aimed : s.Aims config name) (found : c.find? name = some place)
      (refused : (c.service place).provides? (.text method) = some false) :
      Flaw c s config (.notProvided name method)

/-- Whether all registered services can tell what they provide. -/
def Answering (c : Coordinator) : Prop :=
  ∀ name place, c.find? name = some place → (c.service place).provision ≠ .missing

theorem Answering.provides {c : Coordinator} (answering : c.Answering) {name : Option String} {place : Nat}
    (found : c.find? name = some place) (method : Value) :
    ∃ answer, (c.service place).provides? method = some answer := by
  have able := answering name place found
  unfold Service.provides?
  cases provision : (c.service place).provision with
  | missing => exact False.elim (able provision)
  | everything => exact ⟨true, rfl⟩
  | listed => exact ⟨_, rfl⟩

theorem methodName_ok {s : Store} {config : Value} {method : String} :
    methodName s config = .ok method ↔ s.Names config method := by
  unfold methodName Store.Names
  split
  next name same =>
    by_cases empty : name = ""
    · subst empty; simp [same]
    · simp only [String.isEmpty_iff, empty, if_false, same, Except.ok.injEq, Value.scalar.injEq, Scalar.text.injEq]
      exact ⟨fun equal => ⟨equal, equal ▸ empty⟩, fun named => named.1⟩
  next other => simpa using fun same => absurd same (other method)

theorem methodName_error {s : Store} {config : Value} {fault : Fault}
    (failed : methodName s config = .error fault) :
    fault = .configuration .noName ∧ ∀ method, ¬ s.Names config method := by
  refine ⟨?_, fun method named => by rw [methodName_ok.mpr named] at failed; cases failed⟩
  unfold methodName at failed
  split at failed
  · split at failed <;> cases failed
    rfl
  · cases failed; rfl

theorem serviceName_ok {s : Store} {config : Value} {name : Option String} :
    serviceName s config = .ok name ↔ s.Aims config name := by
  unfold serviceName
  split
  next same => cases name <;> simp [Store.Aims, same]
  next given same =>
    by_cases empty : given = ""
    · subst empty; cases name <;> simp [Store.Aims, same]
    · cases name with
      | none => simp [Store.Aims, same, empty]
      | some name =>
        simp only [Store.Aims, String.isEmpty_iff, empty, if_false, same, Except.ok.injEq, Option.some.injEq,
          Value.scalar.injEq, Scalar.text.injEq]
        exact ⟨fun equal => ⟨equal, equal ▸ empty⟩, fun aimed => aimed.1⟩
  next null other =>
    cases name with
    | none => simpa [Store.Aims] using null
    | some name => simpa [Store.Aims] using fun same => absurd same (other name)

theorem serviceName_error {s : Store} {config : Value} {fault : Fault}
    (failed : serviceName s config = .error fault) :
    fault = .configuration .badService ∧ ∀ name, ¬ s.Aims config name := by
  refine ⟨?_, fun name aimed => by rw [serviceName_ok.mpr aimed] at failed; cases failed⟩
  unfold serviceName at failed
  split at failed
  · cases failed
  · split at failed <;> cases failed
    rfl
  · cases failed; rfl

theorem target_other {c : Coordinator} {s : Store} {config : Value} (other : s.isMapping config = false) :
    c.target s config = .error (.configuration .notMapping) := by
  simp [Coordinator.target, other, throw, throwThe, MonadExceptOf.throw, bind, Except.bind]

theorem target_unnamed {c : Coordinator} {s : Store} {config : Value} (mapping : s.isMapping config = true)
    (bad : ∀ method, ¬ s.Names config method) : c.target s config = .error (.configuration .noName) := by
  cases named : methodName s config with
  | ok method => exact False.elim (bad method (methodName_ok.mp named))
  | error fault =>
    obtain ⟨rfl, _⟩ := methodName_error named
    simp [Coordinator.target, mapping, named, bind, Except.bind]

theorem target_unaimed {c : Coordinator} {s : Store} {config : Value} {method : String}
    (mapping : s.isMapping config = true) (named : s.Names config method) (bad : ∀ name, ¬ s.Aims config name) :
    c.target s config = .error (.configuration .badService) := by
  cases aimed : serviceName s config with
  | ok name => exact False.elim (bad name (serviceName_ok.mp aimed))
  | error fault =>
    obtain ⟨rfl, _⟩ := serviceName_error aimed
    simp [Coordinator.target, mapping, methodName_ok.mpr named, aimed, bind, Except.bind]

theorem target_formed {c : Coordinator} {s : Store} {config : Value} {method : String} {name : Option String}
    (mapping : s.isMapping config = true) (named : s.Names config method) (aimed : s.Aims config name) :
    c.target s config = match c.find? name with
      | none => .error (.configuration (.noService name))
      | some place => match (c.service place).provides? (.text method) with
        | none => .error ((c.service place).nature.lack "provides")
        | some false => .error (.configuration (.notProvided name method))
        | some true => .ok { service := place, method, config } := by
  rw [Coordinator.target, mapping, methodName_ok.mpr named, serviceName_ok.mpr aimed]
  rfl

/-- What a call aims at: the named method of the named service, which provides it. -/
theorem target_ok {c : Coordinator} {s : Store} {config : Value} {target : Target} :
    c.target s config = .ok target ↔ s.isMapping config = true ∧ target.config = config ∧
      s.Names config target.method ∧ ∃ name, s.Aims config name ∧ c.find? name = some target.service ∧
        (c.service target.service).provides? (.text target.method) = some true := by
  constructor
  · intro found
    cases mapping : s.isMapping config with
    | false => rw [target_other mapping] at found; cases found
    | true =>
      by_cases named : ∃ method, s.Names config method
      · obtain ⟨method, named⟩ := named
        by_cases aimed : ∃ name, s.Aims config name
        · obtain ⟨name, aimed⟩ := aimed
          rw [target_formed mapping named aimed] at found
          split at found
          · cases found
          next place registered =>
            split at found <;> cases found
            next provided => exact ⟨rfl, rfl, named, name, aimed, registered, provided⟩
        · rw [target_unaimed mapping named (not_exists.mp aimed)] at found; cases found
      · rw [target_unnamed mapping (not_exists.mp named)] at found; cases found
  · rintro ⟨mapping, rfl, named, name, aimed, found, provided⟩
    simp only [target_formed mapping named aimed, found, provided]

/-- A call aims at nothing exactly if it is flawed, and the flaw is what is reported. -/
theorem target_error {c : Coordinator} (answering : c.Answering) {s : Store} {config : Value}
    (mapping : s.isMapping config = true) {fault : Fault} :
    c.target s config = .error fault ↔ ∃ cause, fault = .configuration cause ∧ c.Flaw s config cause := by
  constructor
  · intro failed
    by_cases named : ∃ method, s.Names config method
    · obtain ⟨method, named⟩ := named
      by_cases aimed : ∃ name, s.Aims config name
      · obtain ⟨name, aimed⟩ := aimed
        rw [target_formed mapping named aimed] at failed
        split at failed
        next absent => cases failed; exact ⟨_, rfl, .noService named aimed absent⟩
        next place found =>
          obtain ⟨answer, provided⟩ := answering.provides found (.text method)
          cases answer with
          | true => simp [provided] at failed
          | false =>
            simp only [provided] at failed
            cases failed
            exact ⟨_, rfl, .notProvided named aimed found provided⟩
      · rw [target_unaimed mapping named (not_exists.mp aimed)] at failed
        cases failed
        exact ⟨_, rfl, .badService named (not_exists.mp aimed)⟩
    · rw [target_unnamed mapping (not_exists.mp named)] at failed
      cases failed
      exact ⟨_, rfl, .noName (not_exists.mp named)⟩
  · rintro ⟨cause, rfl, flaw⟩
    cases flaw with
    | noName bad => exact target_unnamed mapping bad
    | badService named bad => exact target_unaimed mapping named bad
    | noService named aimed absent => simp only [target_formed mapping named aimed, absent]
    | notProvided named aimed found refused => simp only [target_formed mapping named aimed, found, refused]

def Flawed (c : Coordinator) (s : Store) (config : Value) : Prop :=
  ∃ cause, c.Flaw s config cause

/-- Whether a flaw is the one of the first call in a list that has one. -/
def FirstFlaw (c : Coordinator) (s : Store) (configs : List Value) (cause : ConfigurationFault) : Prop :=
  ∃ before config after, configs = before ++ config :: after ∧
    (∀ sound ∈ before, ¬ c.Flawed s sound) ∧ c.Flaw s config cause

/-- Looks up what calls aim at, one after the other, up to the first fault. -/
def lookEach (c : Coordinator) (s : Store) (configs : List Value) : Except Fault Unit :=
  checkEach (fun config => do let _ ← c.target s config) configs

theorem lookEach_cons (c : Coordinator) (s : Store) (config : Value) (rest : List Value) :
    c.lookEach s (config :: rest) = (do let _ ← c.target s config; c.lookEach s rest) := by
  cases looked : c.target s config <;> simp [lookEach, checkEach, looked, bind, Except.bind, pure, Except.pure]

theorem checkEach_append (check : Value → Except Fault Unit) (xs ys : List Value) :
    checkEach check (xs ++ ys) = (do checkEach check xs; checkEach check ys) := by
  induction xs with
  | nil => rfl
  | cons x xs ih => simp only [List.cons_append, checkEach, ih, bind_assoc]

theorem checkEach_flatMap (check : Value → Except Fault Unit) (f : Value → List Value) (xs : List Value) :
    checkEach check (xs.flatMap f) = checkEach (fun x => checkEach check (f x)) xs := by
  induction xs with
  | nil => rfl
  | cons x xs ih => simp only [List.flatMap_cons, checkEach_append, ih, checkEach]

theorem checkEach_congr {check other : Value → Except Fault Unit} {xs : List Value}
    (same : ∀ x ∈ xs, check x = other x) : checkEach check xs = checkEach other xs := by
  induction xs with
  | nil => rfl
  | cons x xs ih =>
    simp only [checkEach, same x (List.mem_cons_self ..), ih (fun y member => same y (List.mem_cons_of_mem _ member))]

theorem checkEach_ok {check : Value → Except Fault Unit} {xs : List Value} :
    checkEach check xs = .ok () ↔ ∀ x ∈ xs, check x = .ok () := by
  induction xs with
  | nil => simp [checkEach]
  | cons x xs ih => cases sound : check x <;> simp [checkEach, sound, ih, bind, Except.bind]

theorem checkEach_source (check : Value → Except Fault Unit) (s : Store) (v : Value) :
    (match s.source v with
      | .derived inner => check inner
      | _ => pure ()) = checkEach check ([v].filter s.isMapping) := by
  cases mapping : s.isMapping v with
  | true =>
    simp only [Store.source_of_isMapping mapping, List.filter_cons, mapping, if_true, List.filter_nil, checkEach]
    cases check v <;> rfl
  | false =>
    simp only [List.filter_cons, mapping, Bool.false_eq_true, if_false, List.filter_nil, checkEach]
    cases source : s.source v with
    | derived call => exact False.elim (Store.source_ne_derived mapping call source)
    | literal items => rfl
    | absent => rfl

theorem check_succ (c : Coordinator) (s : Store) (depth : Nat) (config : Value) :
    c.check s (depth + 1) config = (do
      let _ ← c.target s config
      checkEach (c.check s depth) (s.parts config)) := by
  have last : (if s.isMapping (s.field config "resultMapping") = true then
        c.check s depth (s.field config "resultMapping") else pure ()) =
      checkEach (c.check s depth) ([s.field config "resultMapping"].filter s.isMapping) := by
    cases mapping : s.isMapping (s.field config "resultMapping") with
    | true =>
      simp only [if_true, List.filter_cons, mapping, List.filter_nil, checkEach]
      cases c.check s depth (s.field config "resultMapping") <;> rfl
    | false => simp [mapping, checkEach, pure, Except.pure]
  rw [check, Store.parts, Store.given, checkEach_append, checkEach_append, ← checkEach_source, ← last, bind_assoc]
  apply bind_congr
  intro _
  cases s.source (s.field config "parameters") <;> rfl

/-- As long as the depth is enough, a check looks up the call and all calls nested in
it, in their order. -/
theorem check_eq (c : Coordinator) {s : Store} {depth : Nat} {config : Value} (shallow : s.Shallow depth config) :
    c.check s depth config = c.lookEach s (s.preorder depth config) := by
  induction depth generalizing config with
  | zero => cases shallow
  | succ depth ih =>
    have below : checkEach (c.check s depth) (s.parts config) =
        c.lookEach s ((s.parts config).flatMap (s.preorder depth)) := by
      rw [lookEach, checkEach_flatMap]
      exact checkEach_congr fun part member => ih (shallow part member)
    rw [check_succ, below, Store.preorder, lookEach_cons]

theorem lookEach_error {c : Coordinator} (answering : c.Answering) {s : Store} {configs : List Value}
    (mappings : ∀ config ∈ configs, s.isMapping config = true) {fault : Fault} :
    c.lookEach s configs = .error fault ↔ ∃ cause, fault = .configuration cause ∧ c.FirstFlaw s configs cause := by
  induction configs with
  | nil => simp [lookEach, checkEach, FirstFlaw]
  | cons config rest ih =>
    have mapping := mappings config (List.mem_cons_self ..)
    have faults (reason : Fault) : c.target s config = .error reason ↔
        ∃ cause, reason = .configuration cause ∧ c.Flaw s config cause := target_error answering mapping
    have later := ih fun other member => mappings other (List.mem_cons_of_mem _ member)
    rw [lookEach_cons]
    -- The first flaw is that of the first call, or the first one of the rest.
    cases looked : c.target s config with
    | error reason =>
      obtain ⟨cause, rfl, flaw⟩ := (faults reason).mp looked
      simp only [bind, Except.bind, Except.error.injEq]
      constructor
      · rintro rfl
        exact ⟨cause, rfl, [], config, rest, rfl, by simp, flaw⟩
      · rintro ⟨other, rfl, before, first, after, split, sound, otherFlaw⟩
        cases before with
        | cons head tail =>
          cases split
          exact False.elim (sound config (List.mem_cons_self ..) ⟨cause, flaw⟩)
        | nil =>
          cases split
          exact looked.symm.trans ((faults _).mpr ⟨other, rfl, otherFlaw⟩) |> Except.error.inj
    | ok target =>
      have sound : ¬ c.Flawed s config := by
        rintro ⟨cause, flaw⟩
        rw [(faults _).mpr ⟨cause, rfl, flaw⟩] at looked
        cases looked
      refine later.trans (exists_congr fun cause => and_congr_right ?_)
      intro _
      constructor
      · rintro ⟨before, first, after, rfl, earlier, flaw⟩
        exact ⟨config :: before, first, after, rfl, List.forall_mem_cons.mpr ⟨sound, earlier⟩, flaw⟩
      · rintro ⟨before, first, after, split, earlier, flaw⟩
        cases before with
        | nil => cases split; exact False.elim (sound ⟨cause, flaw⟩)
        | cons head tail =>
          cases split
          exact ⟨tail, first, after, rfl, (List.forall_mem_cons.mp earlier).2, flaw⟩

theorem exists_firstFlaw {c : Coordinator} {s : Store} {configs : List Value} :
    (∃ cause, c.FirstFlaw s configs cause) ↔ ∃ config ∈ configs, c.Flawed s config := by
  constructor
  · rintro ⟨cause, before, config, after, rfl, _, flaw⟩
    exact ⟨config, by simp, cause, flaw⟩
  · intro flawed
    induction configs with
    | nil => simp at flawed
    | cons head rest ih =>
      by_cases sound : c.Flawed s head
      · obtain ⟨cause, flaw⟩ := sound
        exact ⟨cause, [], head, rest, rfl, by simp, flaw⟩
      · obtain ⟨config, member, flaw⟩ := flawed
        have later : config ∈ rest := by
          rcases List.mem_cons.mp member with rfl | later
          · exact False.elim (sound flaw)
          · exact later
        obtain ⟨cause, before, first, after, rfl, earlier, flaw⟩ := ih ⟨config, later, flaw⟩
        exact ⟨cause, head :: before, first, after, rfl, List.forall_mem_cons.mpr ⟨sound, earlier⟩, flaw⟩

/-- A call passes its check if it aims at something and its parts pass theirs. -/
theorem check_ok {c : Coordinator} {s : Store} {depth : Nat} {config : Value} :
    c.check s (depth + 1) config = .ok () ↔
      (∃ target, c.target s config = .ok target) ∧ ∀ part ∈ s.parts config, c.check s depth part = .ok () := by
  rw [check_succ, ← checkEach_ok]
  cases c.target s config with
  | error fault => simp [bind, Except.bind]
  | ok target => simp [bind, Except.bind]

/-- All calls that are nested in a call that passes its check aim at something. -/
theorem check_leads {c : Coordinator} {s : Store} {depth : Nat} {config inner : Value}
    (passed : c.check s depth config = .ok ()) (leads : s.Leads config inner) :
    ∃ target, c.target s inner = .ok target := by
  induction leads generalizing depth with
  | self config =>
    cases depth with
    | zero => cases passed
    | succ depth => exact (check_ok.mp passed).1
  | part member _ ih =>
    cases depth with
    | zero => cases passed
    | succ depth => exact ih ((check_ok.mp passed).2 _ member)

end Coordinator

/-- The ways to execute a configuration. -/
inductive Entry where
  | transition
  | state
  deriving DecidableEq, Inhabited

namespace Entry

/-- What the work on a configuration begins with. -/
def frame : Entry → Value → Frame
  | transition, config => .invoke config .null
  | state, config => .materialize config

/-- The calls that a configuration asks for, not counting those nested in them. -/
def roots (s : Store) : Entry → Value → List Value
  | transition, config => [config]
  | state, config => s.given config

/-- All calls that a configuration asks for, each one before its parts. -/
def calls (s : Store) (entry : Entry) (config : Value) : List Value :=
  (entry.roots s config).flatMap s.calls

end Entry

namespace Session

/-- Executes a configuration. -/
def coordinate (s : Session) : Entry → Value → Session × Except Fault Nat
  | .transition => s.coordinateTransition
  | .state => s.coordinateState

theorem checkState_eq (c : Coordinator) {s : Store} {config : Value} (mapping : s.isMapping config = true) :
    c.checkState s config = Coordinator.checkEach (c.checkCall s) (s.given config) := by
  rw [Coordinator.checkState, Store.given, Coordinator.checkEach_append, ← Coordinator.checkEach_source, mapping]
  cases s.source (s.field config "parameters") <;> rfl

theorem isNull_of_isMapping {s : Store} {config : Value} (mapping : s.isMapping config = true) :
    config.isNull = false := by
  cases config with
  | scalar x => cases mapping
  | tuple items => rfl
  | ref place => rfl

/-- A mapping is executed exactly if the calls that it asks for pass their checks. -/
theorem coordinate_eq (s : Session) (entry : Entry) {config : Value} (mapping : s.store.isMapping config = true) :
    s.coordinate entry config = match
        Coordinator.checkEach (s.coordinator.checkCall s.store) (entry.roots s.store config) with
      | .error fault => (s, .error fault)
      | .ok () => ((s.spawn [entry.frame config]).1, .ok (s.spawn [entry.frame config]).2) := by
  cases entry with
  | transition =>
    simp only [coordinate, coordinateTransition, mapping, if_true, callService, Entry.roots, Coordinator.checkEach]
    cases s.coordinator.checkCall s.store config <;> rfl
  | state =>
    simp only [coordinate, coordinateState, isNull_of_isMapping mapping, Bool.false_eq_true, if_false,
      checkState_eq _ mapping, Entry.roots]
    cases Coordinator.checkEach (s.coordinator.checkCall s.store) (s.store.given config) <;> rfl

theorem roots_mapping {s : Store} {entry : Entry} {config call : Value} (mapping : s.isMapping config = true)
    (member : call ∈ entry.roots s config) : s.isMapping call = true := by
  cases entry with
  | transition => rw [List.mem_singleton.mp member]; exact mapping
  | state =>
    rcases List.mem_append.mp member with first | mapped
    · exact (List.mem_filter.mp first).2
    · exact Store.mappedCalls_mapping mapped

theorem leads_mapping {s : Store} {config inner : Value} (mapping : s.isMapping config = true)
    (leads : s.Leads config inner) : s.isMapping inner = true := by
  induction leads with
  | self => exact mapping
  | part member _ ih =>
    apply ih
    rcases List.mem_append.mp member with first | last
    · exact @roots_mapping _ .state _ _ (Store.parts_mapping member) first
    · exact (List.mem_filter.mp last).2

theorem check_roots (c : Coordinator) {s : Store} {entry : Entry} {config : Value}
    (finite : ∀ root ∈ entry.roots s config, s.Finite root) :
    Coordinator.checkEach (c.checkCall s) (entry.roots s config) = c.lookEach s (entry.calls s config) := by
  rw [Entry.calls, Coordinator.lookEach, Coordinator.checkEach_flatMap]
  exact Coordinator.checkEach_congr fun root member => c.check_eq (finite root member).shallow

theorem calls_mapping {s : Store} {entry : Entry} {config : Value} (mapping : s.isMapping config = true)
    (finite : ∀ root ∈ entry.roots s config, s.Finite root) :
    ∀ call ∈ entry.calls s config, s.isMapping call = true := by
  intro call member
  obtain ⟨root, isRoot, below⟩ := List.mem_flatMap.mp member
  exact leads_mapping (roots_mapping mapping isRoot) ((finite root isRoot).mem_calls.mp below)

theorem coordinate_error {s : Session} {entry : Entry} {config : Value} (answering : s.coordinator.Answering)
    (mapping : s.store.isMapping config = true) (finite : ∀ root ∈ entry.roots s.store config, s.store.Finite root)
    {fault : Fault} : (s.coordinate entry config).2 = .error fault ↔
      ∃ cause, fault = .configuration cause ∧ s.coordinator.FirstFlaw s.store (entry.calls s.store config) cause := by
  rw [← Coordinator.lookEach_error answering (calls_mapping mapping finite), ← check_roots _ finite,
    coordinate_eq s entry mapping]
  cases Coordinator.checkEach (s.coordinator.checkCall s.store) (entry.roots s.store config) <;> simp

theorem exists_flawed_calls {c : Coordinator} {s : Store} {entry : Entry} {config : Value}
    (finite : ∀ root ∈ entry.roots s config, s.Finite root) :
    (∃ call ∈ entry.calls s config, c.Flawed s call) ↔
      ∃ root ∈ entry.roots s config, ∃ call, s.Leads root call ∧ c.Flawed s call := by
  constructor
  · rintro ⟨call, member, flawed⟩
    obtain ⟨root, isRoot, below⟩ := List.mem_flatMap.mp member
    exact ⟨root, isRoot, call, (finite root isRoot).mem_calls.mp below, flawed⟩
  · rintro ⟨root, isRoot, call, leads, flawed⟩
    exact ⟨call, List.mem_flatMap.mpr ⟨root, isRoot, (finite root isRoot).mem_calls.mpr leads⟩, flawed⟩

theorem coordinate_other {s : Session} {entry : Entry} {config : Value} (other : s.store.isMapping config = false)
    {fault : Fault} : (s.coordinate entry config).2 = .error fault ↔
      entry = .state ∧ config.isNull = false ∧ fault = .configuration (.badState (s.store.kind config)) := by
  cases entry with
  | transition => simp [coordinate, coordinateTransition, other]
  | state =>
    cases null : config.isNull with
    | true => simp [coordinate, coordinateState, null]
    | false =>
      simp only [coordinate, coordinateState, null, Bool.false_eq_true, if_false, Coordinator.checkState, other,
        Bool.not_false, if_true, throw, throwThe, MonadExceptOf.throw, bind, Except.bind, Except.error.injEq,
        true_and]
      exact eq_comm

theorem coordinate_refused_unchanged {s : Session} {entry : Entry} {config : Value} {fault : Fault}
    (refused : (s.coordinate entry config).2 = .error fault) : (s.coordinate entry config).1 = s := by
  cases mapping : s.store.isMapping config with
  | true =>
    rw [coordinate_eq s entry mapping] at refused ⊢
    split at refused
    · rfl
    · cases refused
  | false =>
    obtain ⟨rfl, null, rfl⟩ := (coordinate_other mapping).mp refused
    simp [coordinate, coordinateState, null, Coordinator.checkState, mapping, throw, throwThe,
      MonadExceptOf.throw, bind, Except.bind]

/-- A mapping is refused exactly if one of the calls that it asks for is flawed, with the
flaw of the first of these, and then the session is as it was. Otherwise one task is
queued and nothing else happens. What is no mapping is refused only as the configuration
of a state, unless it is null. -/
theorem coordinate_refuses (s : Session) (entry : Entry) (config : Value) (answering : s.coordinator.Answering)
    (finite : ∀ root ∈ entry.roots s.store config, s.store.Finite root) :
    (s.store.isMapping config = true →
      (∀ cause, (s.coordinate entry config).2 = .error (.configuration cause) ↔
        s.coordinator.FirstFlaw s.store (entry.calls s.store config) cause) ∧
      ((∃ cause, (s.coordinate entry config).2 = .error (.configuration cause)) ↔
        ∃ root ∈ entry.roots s.store config, ∃ call, s.store.Leads root call ∧ s.coordinator.Flawed s.store call)) ∧
    (s.store.isMapping config = false →
      ∀ fault, (s.coordinate entry config).2 = .error fault ↔
        entry = .state ∧ config.isNull = false ∧ fault = .configuration (.badState (s.store.kind config))) ∧
    (∀ fault, (s.coordinate entry config).2 = .error fault →
      (∃ cause, fault = .configuration cause) ∧ (s.coordinate entry config).1 = s) ∧
    (∀ id, (s.coordinate entry config).2 = .ok id → s.store.isMapping config = true →
      s.coordinate entry config = ((s.spawn [entry.frame config]).1, .ok (s.spawn [entry.frame config]).2)) := by
  have refused (mapping : s.store.isMapping config = true) (fault : Fault) :=
    @coordinate_error s entry config answering mapping finite fault
  refine ⟨fun mapping => ⟨?_, ?_⟩, fun other fault => coordinate_other other, fun fault failed =>
    ⟨?_, coordinate_refused_unchanged failed⟩, ?_⟩
  · intro cause
    simpa using refused mapping (.configuration cause)
  · rw [← exists_flawed_calls finite, ← Coordinator.exists_firstFlaw]
    simpa using exists_congr fun cause => refused mapping (.configuration cause)
  · cases mapping : s.store.isMapping config with
    | true => exact ((refused mapping fault).mp failed).imp fun cause found => found.1
    | false => exact ⟨_, ((coordinate_other mapping).mp failed).2.2⟩
  · intro id accepted mapping
    rw [coordinate_eq s entry mapping] at accepted ⊢
    split at accepted
    · cases accepted
    · rfl

/-- A session whose default service shows things, with a state configuration in the last
place: its parameters come from a call whose result is mapped by a call without a name. -/
private def nameless : Session where
  store := { cells := #[
    .map [(.text "name", .text "")],
    .map [(.text "name", .text "show"), (.text "resultMapping", .ref 0)],
    .map [(.text "situation", .text "lobby"), (.text "parameters", .ref 1)]] }
  coordinator :=
    { services := #[{ nature := { kind := "Service" }, provision := .listed,
                      methods := [{ name := .text "show", label := "show", script := { action := .echo } }] }]
      registry := [("", 0)] }

theorem nameless_refused : nameless.coordinator.Answering ∧
    (∀ root ∈ Entry.state.roots nameless.store (.ref 2), nameless.store.Finite root) ∧
    nameless.coordinator.FirstFlaw nameless.store (Entry.state.calls nameless.store (.ref 2)) .noName := by
  have answering : nameless.coordinator.Answering := by
    intro name place found
    have only : place = 0 := by
      simp only [Coordinator.find?, nameless, List.lookup_cons, List.lookup_nil] at found
      split at found <;> simp_all
    subst only
    simp [nameless, Coordinator.service]
  have finite : ∀ root ∈ Entry.state.roots nameless.store (.ref 2), nameless.store.Finite root := by
    have listed : Entry.state.roots nameless.store (.ref 2) = [.ref 1] := rfl
    rw [listed]
    simp only [List.mem_singleton, forall_eq]
    exact ⟨3, by decide⟩
  have mapping : nameless.store.isMapping (.ref 2) = true := by rfl
  refine ⟨answering, finite, ?_⟩
  have refuses := (coordinate_refuses nameless .state (.ref 2) answering finite).1 mapping
  exact (refuses.1 .noName).mp rfl

end Session
end Interaction
