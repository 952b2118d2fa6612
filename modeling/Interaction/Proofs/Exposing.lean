import Interaction.Proofs.Keys
import Interaction.Proofs.Run

/-! The methods of a service. What is exposed under a name takes the place of what was known by that name,
so that a name stands for what was exposed last. -/

namespace Interaction

/-- A method that is put under a name. -/
structure Exposure where
  name : Value
  label : String
  script : Script

def Exposure.event (place : Nat) (x : Exposure) : Event :=
  .expose place x.name x.label x.script

/-- What was exposed last under a name, leaving out what cannot be a name. -/
def Store.latest? (s : Store) (exposures : List Exposure) (name : Value) : Option Exposure :=
  exposures.reverse.find? fun x => (s.container? x.name).isNone && x.name.sameKey name

/-- What a method does, whatever it is known by. -/
def Method.exposed (m : Method) : String × Script :=
  (m.label, m.script)

namespace Service

variable {name : Value}

theorem find?_exposeIn {m : Method} (same : m.name.sameKey name = true) (methods : List Method) :
    ((exposeIn methods m).find? fun other => other.name.sameKey name).map Method.exposed = some m.exposed := by
  induction methods with
  | nil => simp [exposeIn, same]
  | cons first rest ih =>
    have alike : first.name.sameKey m.name = first.name.sameKey name := by
      apply Bool.eq_iff_iff.mpr
      exact ⟨fun fits => Value.sameKey_trans fits same, fun fits => Value.sameKey_trans fits (Value.sameKey_symm same)⟩
    unfold exposeIn
    cases fits : first.name.sameKey name with
    | true => simp [alike, fits, Method.exposed]
    | false => simpa [alike, fits] using ih

theorem find?_exposeIn_other {m : Method} (other : m.name.sameKey name = false) (methods : List Method) :
    (exposeIn methods m).find? (fun known => known.name.sameKey name) =
      methods.find? fun known => known.name.sameKey name := by
  induction methods with
  | nil => simp [exposeIn, other]
  | cons first rest ih =>
    unfold exposeIn
    cases fits : first.name.sameKey m.name with
    | false => simp only [Bool.false_eq_true, if_false, List.find?_cons, ih]
    | true =>
      have apart : first.name.sameKey name = false := by
        apply Bool.eq_false_iff.mpr
        intro known
        rw [Value.sameKey_trans (Value.sameKey_symm fits) known] at other
        cases other
      simp [apart]

theorem method?_expose (service : Service) (m : Method) (name : Value) :
    ((service.expose m).method? name).map Method.exposed =
      if m.name.sameKey name then some m.exposed else (service.method? name).map Method.exposed := by
  cases same : m.name.sameKey name with
  | true => exact find?_exposeIn same service.methods
  | false => exact congrArg (Option.map Method.exposed) (find?_exposeIn_other same service.methods)

end Service

namespace Coordinator

theorem service_expose_self {c : Coordinator} {place : Nat} (inside : place < c.services.size) (m : Method) :
    (c.expose place m).service place = (c.service place).expose { m with counter := c.counts.size } := by
  simp only [service, expose, Array.getElem?_modify, if_true, Array.getElem?_eq_getElem inside, Option.map_some,
    Option.getD_some]

end Coordinator

namespace Session

variable {s : Session} {place : Nat}

theorem checkName_ok {name : Value} : s.checkName name = .ok () ↔ s.store.container? name = none := by
  unfold checkName
  split <;> simp_all

/-- What exposing leaves as it is. -/
structure Exposes (s t : Session) (place : Nat) : Prop where
  store : t.store = s.store
  schedule : t.schedule = s.schedule
  deferred : t.deferred = s.deferred
  asked : t.asked = s.asked
  context : t.coordinator.context = s.coordinator.context
  inside : place < s.coordinator.services.size → place < t.coordinator.services.size
  label : (t.coordinator.service place).label = (s.coordinator.service place).label
  provision : (t.coordinator.service place).provision = (s.coordinator.service place).provision
  execution : (t.coordinator.service place).execution = (s.coordinator.service place).execution

theorem Exposes.refl (s : Session) (place : Nat) : s.Exposes s place :=
  ⟨rfl, rfl, rfl, rfl, rfl, id, rfl, rfl, rfl⟩

theorem Exposes.trans {t u : Session} (first : s.Exposes t place) (last : t.Exposes u place) : s.Exposes u place where
  store := last.store.trans first.store
  schedule := last.schedule.trans first.schedule
  deferred := last.deferred.trans first.deferred
  asked := last.asked.trans first.asked
  context := last.context.trans first.context
  inside := last.inside ∘ first.inside
  label := last.label.trans first.label
  provision := last.provision.trans first.provision
  execution := last.execution.trans first.execution

theorem exposes_expose (inside : place < s.coordinator.services.size) (x : Exposure) (name : Value) :
    s.Exposes (s.happen (x.event place)) place ∧
      (((s.happen (x.event place)).coordinator.service place).method? name).map Method.exposed =
        ((if (s.store.container? x.name).isNone && x.name.sameKey name then some x else none).map
          fun x => (x.label, x.script)).or (((s.coordinator.service place).method? name).map Method.exposed) := by
  cases named : s.store.container? x.name with
  | some kind =>
    have same : s.happen (x.event place) = s := by simp [Exposure.event, happen, expose, checkName, named]
    rw [same]
    exact ⟨.refl s place, by simp⟩
  | none =>
    obtain ⟨t, same, coordinator, exposes⟩ : ∃ t, s.happen (x.event place) = t ∧
        t.coordinator = s.coordinator.expose place { name := x.name, label := x.label, script := x.script } ∧
        t.store = s.store ∧ t.schedule = s.schedule ∧ t.deferred = s.deferred ∧ t.asked = s.asked := by
      refine ⟨_, rfl, ?_⟩
      simp only [Exposure.event, happen, expose, checkName, named]
      exact ⟨rfl, rfl, rfl, rfl, rfl⟩
    obtain ⟨store, schedule, deferred, asked⟩ := exposes
    have exposed := Coordinator.service_expose_self inside { name := x.name, label := x.label, script := x.script }
    rw [same]
    refine ⟨⟨store, schedule, deferred, asked, ?_, ?_, ?_, ?_, ?_⟩, ?_⟩
    · rw [coordinator]
      rfl
    · rw [coordinator]
      simp [Coordinator.expose]
    all_goals rw [coordinator, exposed]
    · rfl
    · rfl
    · rfl
    · rw [Service.method?_expose]
      cases x.name.sameKey name <;> simp [Method.exposed]

theorem exposes_all (inside : place < s.coordinator.services.size) (exposures : List Exposure) (name : Value) :
    s.Exposes (s.run (exposures.map (Exposure.event place))) place ∧
      (((s.run (exposures.map (Exposure.event place))).coordinator.service place).method? name).map Method.exposed =
        ((s.store.latest? exposures name).map fun x => (x.label, x.script)).or
          (((s.coordinator.service place).method? name).map Method.exposed) := by
  induction exposures generalizing s with
  | nil => exact ⟨.refl s place, by simp [run, Store.latest?]⟩
  | cons x rest ih =>
    obtain ⟨first, added⟩ := exposes_expose inside x name
    obtain ⟨last, others⟩ := ih (first.inside inside)
    refine ⟨first.trans last, others.trans ?_⟩
    rw [added, first.store]
    simp only [Store.latest?, List.reverse_cons, List.find?_append, List.find?_singleton, Option.map_or, Option.or_assoc]

end Session

end Interaction
