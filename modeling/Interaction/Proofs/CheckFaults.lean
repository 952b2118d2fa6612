import Interaction.Proofs.Validation
import Interaction.Session.Call

/-! What stops a check. Most services can tell what they provide and most configurations come to an end, and
then a configuration is refused for a flaw of its own. But a service is registered whether it can tell what it
provides or not, and nothing keeps configurations from containing themselves. -/

namespace Interaction

namespace Store

/-- The calls nested in a call in the order in which a check comes to them. It comes to none where they are
nested deeper than it goes. -/
def trail (s : Store) : Nat → Value → List (Option Value)
  | 0, _ => [none]
  | depth + 1, config => some config :: (s.parts config).flatMap (s.trail depth)

variable {s : Store} {depth : Nat} {config call : Value}

theorem mem_trail_none : none ∈ s.trail depth config ↔ ¬ s.Shallow depth config := by
  induction depth generalizing config with
  | zero => simp [trail, Shallow]
  | succ depth ih =>
    simp only [trail, Shallow, List.mem_cons, List.mem_flatMap, reduceCtorEq, false_or, ih]
    simp

theorem mem_trail_some (member : some call ∈ s.trail depth config) : s.Leads config call := by
  induction depth generalizing config with
  | zero => simp [trail] at member
  | succ depth ih =>
    simp only [trail, List.mem_cons, Option.some.injEq, List.mem_flatMap] at member
    rcases member with rfl | ⟨part, among, below⟩
    · exact .self call
    · exact .part among (ih below)

/-- A call is as deep as the store allows exactly if it does not come to an end. -/
theorem finite_iff_shallow : s.Finite config ↔ s.Shallow (Coordinator.depthBound s) config :=
  ⟨Finite.shallow, fun shallow => ⟨_, shallow⟩⟩

end Store

namespace Coordinator

variable {c : Coordinator} {s : Store} {config : Value} {fault : Fault}

/-- What stops a check where it comes to a call, or to none. -/
inductive Stops (c : Coordinator) (s : Store) : Option Value → Fault → Prop where
  | flaw {config : Value} {cause : ConfigurationFault} (flaw : c.Flaw s config cause) :
      Stops c s (some config) (.configuration cause)
  /-- The call aims at a service that cannot tell what it provides. -/
  | mute {config : Value} {method : String} {name : Option String} {place : Nat} (named : s.Names config method)
      (aimed : s.Aims config name) (found : c.find? name = some place)
      (missing : (c.service place).provision = .missing) :
      Stops c s (some config) ((c.service place).nature.lack "provides")
  | endless : Stops c s none .endless

/-- Whether a check that goes along a trail is stopped with the fault. -/
def FirstStop (c : Coordinator) (s : Store) (trail : List (Option Value)) (fault : Fault) : Prop :=
  ∃ before stop after, trail = before ++ stop :: after ∧
    (∀ passed ∈ before, ∀ other, ¬ c.Stops s passed other) ∧ c.Stops s stop fault

/-- A step of a check on its trail. -/
def tread (c : Coordinator) (s : Store) : Option Value → Except Fault Unit
  | none => .error .endless
  | some config => do let _ ← c.target s config

theorem provides?_eq_none {service : Service} {name : Value} :
    service.provides? name = none ↔ service.provision = .missing := by
  unfold Service.provides?
  cases service.provision <;> simp

theorem target_stops (mapping : s.isMapping config = true) :
    c.target s config = .error fault ↔ c.Stops s (some config) fault := by
  constructor
  · intro failed
    by_cases named : ∃ method, s.Names config method
    · obtain ⟨method, named⟩ := named
      by_cases aimed : ∃ name, s.Aims config name
      · obtain ⟨name, aimed⟩ := aimed
        rw [target_formed mapping named aimed] at failed
        split at failed
        next absent => cases failed; exact .flaw (.noService named aimed absent)
        next place found =>
          split at failed
          next mute => cases failed; exact .mute named aimed found (provides?_eq_none.mp mute)
          next refused => cases failed; exact .flaw (.notProvided named aimed found refused)
          next => cases failed
      · rw [target_unaimed mapping named (not_exists.mp aimed)] at failed
        cases failed
        exact .flaw (.badService named (not_exists.mp aimed))
    · rw [target_unnamed mapping (not_exists.mp named)] at failed
      cases failed
      exact .flaw (.noName (not_exists.mp named))
  · intro stops
    cases stops with
    | mute named aimed found missing =>
      simp only [target_formed mapping named aimed, found, provides?_eq_none.mpr missing]
    | flaw flaw =>
      cases flaw with
      | noName bad => exact target_unnamed mapping bad
      | badService named bad => exact target_unaimed mapping named bad
      | noService named aimed absent => simp only [target_formed mapping named aimed, absent]
      | notProvided named aimed found refused => simp only [target_formed mapping named aimed, found, refused]

theorem tread_error {stop : Option Value} (mapping : ∀ config, stop = some config → s.isMapping config = true) :
    c.tread s stop = .error fault ↔ c.Stops s stop fault := by
  cases stop with
  | none =>
    constructor
    · rintro ⟨⟩
      exact .endless
    · rintro ⟨⟩
      rfl
  | some config =>
    rw [← target_stops (mapping config rfl)]
    cases looked : c.target s config <;> simp [tread, looked, bind, Except.bind, pure, Except.pure]

theorem tread_ok {stop : Option Value} (mapping : ∀ config, stop = some config → s.isMapping config = true) :
    c.tread s stop = .ok () ↔ ∀ fault, ¬ c.Stops s stop fault := by
  simp only [← tread_error mapping]
  cases c.tread s stop <;> simp

theorem forM_error {α : Type} {check : α → Except Fault Unit} {xs : List α} : forM xs check = .error fault ↔
    ∃ before x after, xs = before ++ x :: after ∧ (∀ passed ∈ before, check passed = .ok ()) ∧ check x = .error fault := by
  induction xs with
  | nil => simp [pure, Except.pure]
  | cons x xs ih =>
    rw [List.forM_cons]
    cases checked : check x with
    | error reason =>
      constructor
      · rintro ⟨⟩
        exact ⟨[], x, xs, rfl, by simp, checked⟩
      · rintro ⟨_ | ⟨first, before⟩, other, after, split, passed, failed⟩
        · cases split
          exact checked.symm.trans failed
        · cases split
          exact absurd ((passed x (List.mem_cons_self ..)).symm.trans checked) (by simp)
    | ok done =>
      refine ih.trans ⟨?_, ?_⟩
      · rintro ⟨before, other, after, rfl, passed, failed⟩
        exact ⟨x :: before, other, after, rfl, List.forall_mem_cons.mpr ⟨checked, passed⟩, failed⟩
      · rintro ⟨_ | ⟨first, before⟩, other, after, split, passed, failed⟩
        · cases split
          exact absurd (checked.symm.trans failed) (by simp)
        · cases split
          exact ⟨before, other, after, rfl, (List.forall_mem_cons.mp passed).2, failed⟩

theorem checkEach_flatMap_forM {α : Type} {check : Value → Except Fault Unit} {f : Value → List α}
    {tread : α → Except Fault Unit} {xs : List Value} (same : ∀ x ∈ xs, check x = forM (f x) tread) :
    checkEach check xs = forM (xs.flatMap f) tread := by
  induction xs with
  | nil => rfl
  | cons x xs ih =>
    rw [checkEach, same x (List.mem_cons_self ..), ih fun y member => same y (List.mem_cons_of_mem _ member),
      List.flatMap_cons, List.forM_append]

theorem check_trail (depth : Nat) : c.check s depth config = forM (s.trail depth config) (c.tread s) := by
  induction depth generalizing config with
  | zero => rfl
  | succ depth ih =>
    have below := checkEach_flatMap_forM fun part (_ : part ∈ s.parts config) => @ih part
    rw [check_succ, below, Store.trail, List.forM_cons]
    cases looked : c.target s config <;> simp [tread, looked, bind, Except.bind, pure, Except.pure]

theorem trail_error {trail : List (Option Value)} (mappings : ∀ call, some call ∈ trail → s.isMapping call = true) :
    forM trail (c.tread s) = .error fault ↔ c.FirstStop s trail fault := by
  have here (stop : Option Value) (member : stop ∈ trail) : ∀ config, stop = some config → s.isMapping config = true := by
    rintro config rfl
    exact mappings config member
  rw [forM_error, FirstStop]
  constructor
  · rintro ⟨before, stop, after, rfl, passed, failed⟩
    refine ⟨before, stop, after, rfl, fun other member => ?_, (tread_error (here stop (by simp))).mp failed⟩
    exact (tread_ok (here other (by simp [member]))).mp (passed other member)
  · rintro ⟨before, stop, after, rfl, passed, failed⟩
    refine ⟨before, stop, after, rfl, fun other member => ?_, (tread_error (here stop (by simp))).mpr failed⟩
    exact (tread_ok (here other (by simp [member]))).mpr (passed other member)

end Coordinator

namespace Entry

/-- The calls that a configuration asks for, in the order in which a check comes to them. -/
def trail (s : Store) (entry : Entry) (config : Value) : List (Option Value) :=
  (entry.roots s config).flatMap (s.trail (Coordinator.depthBound s))

theorem mem_trail_none {s : Store} {entry : Entry} {config : Value} :
    none ∈ entry.trail s config ↔ ∃ root ∈ entry.roots s config, ¬ s.Finite root := by
  simp only [trail, List.mem_flatMap, Store.mem_trail_none, Store.finite_iff_shallow]

end Entry

namespace Session

variable {s : Session} {entry : Entry} {config : Value} {fault : Fault}

theorem trail_mapping {s : Store} (mapping : s.isMapping config = true) {call : Value}
    (member : some call ∈ entry.trail s config) : s.isMapping call = true := by
  obtain ⟨root, isRoot, below⟩ := List.mem_flatMap.mp member
  exact leads_mapping (roots_mapping mapping isRoot) (Store.mem_trail_some below)

theorem coordinate_stopped (mapping : s.store.isMapping config = true) : (s.coordinate entry config).2 = .error fault ↔
    s.coordinator.FirstStop s.store (entry.trail s.store config) fault := by
  have walked : Coordinator.checkEach (s.coordinator.checkCall s.store) (entry.roots s.store config) =
      forM (entry.trail s.store config) (s.coordinator.tread s.store) :=
    Coordinator.checkEach_flatMap_forM fun root _ => Coordinator.check_trail _
  rw [← Coordinator.trail_error fun call => trail_mapping mapping, ← walked, coordinate_eq s entry mapping]
  cases Coordinator.checkEach (s.coordinator.checkCall s.store) (entry.roots s.store config) <;> simp

theorem firstStop_kinds {c : Coordinator} {s : Store} (stopped : c.FirstStop s (entry.trail s config) fault) :
    (∃ cause, fault = .configuration cause) ∨
    (∃ name place, c.find? name = some place ∧ (c.service place).provision = .missing ∧
      fault = (c.service place).nature.lack "provides") ∨
    fault = .endless ∧ ∃ root ∈ entry.roots s config, ¬ s.Finite root := by
  obtain ⟨before, stop, after, split, -, stops⟩ := stopped
  cases stops with
  | flaw flaw => exact Or.inl ⟨_, rfl⟩
  | mute named aimed found missing => exact Or.inr (Or.inl ⟨_, _, found, missing, rfl⟩)
  | endless => exact Or.inr (Or.inr ⟨rfl, Entry.mem_trail_none.mp (by simp [split])⟩)

theorem coordinate_error_kinds (failed : (s.coordinate entry config).2 = .error fault) :
    (∃ cause, fault = .configuration cause) ∨
    (∃ name place, s.coordinator.find? name = some place ∧ (s.coordinator.service place).provision = .missing ∧
      fault = (s.coordinator.service place).nature.lack "provides") ∨
    fault = .endless ∧ ∃ root ∈ entry.roots s.store config, ¬ s.store.Finite root := by
  cases mapping : s.store.isMapping config with
  | true => exact firstStop_kinds ((coordinate_stopped mapping).mp failed)
  | false => exact Or.inl ⟨_, ((coordinate_other mapping).mp failed).2.2⟩

/-- A call without parameters to the service under a key of the registry. -/
def plainCall (key : String) : Store where
  cells := #[.map [(.text "name", .text "run"), (.text "service", if key = "" then .null else .text key)]]

theorem plainCall_finite {key : String} {root : Value} (member : root ∈ Entry.transition.roots (plainCall key) (.ref 0)) :
    (plainCall key).Finite root := by
  cases List.mem_singleton.mp member
  have alone : (plainCall key).parts (.ref 0) = [] := rfl
  refine ⟨1, fun part among => ?_⟩
  rw [alone] at among
  cases among

/-- A call to a service that cannot tell what it provides is refused, but for no flaw of the call. -/
theorem plainCall_mute (s : Session) {name : Option String} {place : Nat} (found : s.coordinator.find? name = some place)
    (missing : (s.coordinator.service place).provision = .missing) :
    ({ s with store := plainCall (name.getD "") }.coordinate .transition (.ref 0)).2 =
      .error ((s.coordinator.service place).nature.lack "provides") := by
  have named : (plainCall (name.getD "")).Names (.ref 0) "run" := ⟨rfl, by simp⟩
  have asked : (plainCall (name.getD "")).field (.ref 0) "service" =
      if name.getD "" = "" then .null else .text (name.getD "") := rfl
  have stops : s.coordinator.Stops (plainCall (name.getD "")) (some (.ref 0))
      ((s.coordinator.service place).nature.lack "provides") := by
    by_cases default : name.getD "" = ""
    · have aimed : (plainCall (name.getD "")).Aims (.ref 0) none := by rw [Store.Aims, asked, if_pos default]
      have registered : s.coordinator.find? none = some place := by
        rw [← found, Coordinator.find?, Coordinator.find?, default]
        rfl
      exact .mute named aimed registered missing
    · have aimed : (plainCall (name.getD "")).Aims (.ref 0) (some (name.getD "")) := by
        rw [Store.Aims, asked, if_neg default]
        exact ⟨rfl, default⟩
      exact .mute named aimed found missing
  have mapping : (plainCall (name.getD "")).isMapping (.ref 0) = true := rfl
  exact (coordinate_stopped mapping).mpr ⟨[], some (.ref 0), [], rfl, by simp, stops⟩

/-- A configuration is refused with what first stops its check, and then nothing has happened. That is a flaw
of the configuration, unless the check comes to a service that is registered but cannot tell what it provides,
or goes on and on. So configurations that come to an end are refused with flaws of theirs alone exactly if all
registered services can tell what they provide. -/
theorem coordinate_raises (s : Session) :
    (∀ entry config fault, (s.coordinate entry config).2 = .error fault ↔
      if s.store.isMapping config = true then s.coordinator.FirstStop s.store (entry.trail s.store config) fault
      else entry = .state ∧ config.isNull = false ∧ fault = .configuration (.badState (s.store.kind config))) ∧
    (∀ entry config fault, (s.coordinate entry config).2 = .error fault → (s.coordinate entry config).1 = s ∧
      ((∃ cause, fault = .configuration cause) ∨
      (∃ name place, s.coordinator.find? name = some place ∧ (s.coordinator.service place).provision = .missing ∧
        fault = (s.coordinator.service place).nature.lack "provides") ∨
      fault = .endless ∧ ∃ root ∈ entry.roots s.store config, ¬ s.store.Finite root)) ∧
    (s.coordinator.Answering ↔ ∀ store entry config fault, (∀ root ∈ Entry.roots store entry config, store.Finite root) →
      ({ s with store }.coordinate entry config).2 = .error fault → ∃ cause, fault = .configuration cause) := by
  refine ⟨fun entry config fault => ?_, fun entry config fault failed =>
    ⟨coordinate_refused_unchanged failed, coordinate_error_kinds failed⟩, ?_, ?_⟩
  · cases mapping : s.store.isMapping config with
    | true => rw [if_pos rfl, coordinate_stopped mapping]
    | false => rw [if_neg (by simp), coordinate_other mapping]
  · intro answering store entry config fault finite failed
    obtain flaw | ⟨name, place, found, missing, -⟩ | ⟨-, root, member, infinite⟩ := coordinate_error_kinds failed
    · exact flaw
    · exact absurd missing (answering name place found)
    · exact absurd (finite root member) infinite
  · intro always name place found missing
    obtain ⟨cause, same⟩ := always _ .transition (.ref 0) _ (fun root => plainCall_finite) (plainCall_mute s found missing)
    cases same

/-- A session with a configuration, and an object that executes methods but cannot tell which. -/
private def unregistered : Session where
  store := { cells := #[.map [(.text "name", .text "m"), (.text "service", .text "svc")]] }
  behavior := .coordinated
  coordinator := { services := #[{ nature := { kind := "NoProvides" }, execution := .direct }] }

/-- The object is accepted as a service, and then the call to it is refused with a fault that no caller expects. -/
theorem mute_service_raises : (unregistered.register (.text "svc") (some 0)).2 = .ok () ∧
    let answer := ((unregistered.register (.text "svc") (some 0)).1.coordinate .transition (.ref 0)).2
    answer = .error (.lacking (some "'NoProvides' object") "provides") ∧
      ∀ fault, answer = .error fault → fault.isExpected = false := by
  refine ⟨rfl, rfl, ?_⟩
  rintro fault ⟨⟩
  rfl

end Session

end Interaction
