import Interaction.Proofs.Orderly
import Interaction.Proofs.Validation

/-! What a schedule and a registry keep while work is started: whatever was scheduled stays
as it is, and whatever a registry finds it finds again. -/

namespace Interaction

namespace Schedule

variable {φ : Type}

/-- Whatever was scheduled before is scheduled as before. New tasks may be queued, and
more may wait for old promises. -/
structure Extends (s t : Schedule φ) : Prop where
  size : s.promises.size ≤ t.promises.size
  outcome : ∀ {id}, id < s.promises.size → t.outcome? id = s.outcome? id
  origin : ∀ {id}, id < s.promises.size → t.origin? id = s.origin? id
  resumed : ∀ {task id}, (Waiter.resume task, id) ∈ t.notices ↔ (Waiter.resume task, id) ∈ s.notices
  queued : ∀ {task}, task < s.promises.size → (.run task ∈ t.queue ↔ .run task ∈ s.queue)

namespace Extends

theorem refl (s : Schedule φ) : s.Extends s :=
  ⟨Nat.le_refl _, fun _ => rfl, fun _ => rfl, Iff.rfl, fun _ => Iff.rfl⟩

theorem trans {s t u : Schedule φ} (first : s.Extends t) (last : t.Extends u) : s.Extends u where
  size := Nat.le_trans first.size last.size
  outcome inside := (last.outcome (Nat.lt_of_lt_of_le inside first.size)).trans (first.outcome inside)
  origin inside := (last.origin (Nat.lt_of_lt_of_le inside first.size)).trans (first.origin inside)
  resumed := last.resumed.trans first.resumed
  queued inside := (last.queued (Nat.lt_of_lt_of_le inside first.size)).trans (first.queued inside)

theorem add (s : Schedule φ) (p : Promise φ) (alone : p.waiters = []) : s.Extends (s.add p).1 where
  size := by rw [size_add]; exact Nat.le_succ _
  outcome inside := by rw [outcome?_add, if_neg (Nat.ne_of_lt inside)]
  origin inside := by rw [origin?_add, if_neg (Nat.ne_of_lt inside)]
  resumed := by rw [notices_add s p alone]
  queued _ := Iff.rfl

theorem spawn (s : Schedule φ) (frames : List φ) : s.Extends (s.spawn frames).1 := by
  have added := Extends.add s { origin := .task frames } rfl
  have noticed : (s.spawn frames).1.notices = (s.add { origin := .task frames }).1.notices :=
    notices_run (s.add { origin := .task frames }).1 _
  refine ⟨added.size, added.outcome, added.origin, noticed ▸ added.resumed, fun inside => ?_⟩
  simp only [Schedule.spawn, List.mem_append, List.mem_singleton, Job.run.injEq, Schedule.add]
  exact ⟨fun either => either.resolve_right (Nat.ne_of_lt inside), Or.inl⟩

theorem watchAll (s : Schedule φ) {ids : List Nat} (inside : ∀ id ∈ ids, id < s.promises.size) {waiter : Waiter}
    (idle : waiter.task? = none) : s.Extends (s.watchAll ids waiter) where
  size := Nat.le_of_eq (size_watchAll ..).symm
  outcome _ := outcome?_watchAll ..
  origin _ := origin?_watchAll ..
  resumed {task id} := by
    rw [(notices_watchAll s inside waiter).mem_iff, List.mem_append, List.mem_map]
    refine ⟨fun either => either.resolve_left ?_, Or.inr⟩
    rintro ⟨id, _, same⟩
    cases same
    cases idle
  queued _ := by
    rw [mem_queue_watchAll]
    exact ⟨fun either => either.resolve_right (by simp), Or.inl⟩

theorem watch (s : Schedule φ) {id : Nat} (inside : id < s.promises.size) (name : Value) :
    s.Extends (s.watch id (.report name)) := by
  have alone : ∀ other ∈ [id], other < s.promises.size := by simpa using inside
  exact .watchAll s alone rfl

theorem join (s : Schedule φ) {members : List Nat} (inside : ∀ member ∈ members, member < s.promises.size)
    (patient : Bool) : s.Extends (s.join members patient).1 := by
  by_cases empty : members = []
  · subst empty
    exact .add s _ rfl
  · rw [join_members s empty]
    refine (Extends.add s { origin := .join members members.length patient } rfl).trans (.watchAll _ ?_ rfl)
    intro member isMember
    rw [size_add]
    exact Nat.lt_succ_of_lt (inside member isMember)

theorem role? {s t : Schedule φ} (extended : s.Extends t) {id : Nat} (inside : id < s.promises.size) :
    t.role? id = s.role? id :=
  role?_congr (extended.origin inside)

theorem members? {s t : Schedule φ} (extended : s.Extends t) {id : Nat} (inside : id < s.promises.size) :
    t.members? id = s.members? id :=
  members?_congr (extended.role? inside)

theorem frames {s t : Schedule φ} (extended : s.Extends t) {id : Nat} (inside : id < s.promises.size) :
    t.frames id = s.frames id :=
  frames_congr (extended.origin inside)

end Extends

def spawnAll (s : Schedule φ) (tasks : List (List φ)) : Schedule φ :=
  tasks.foldl (fun current frames => (current.spawn frames).1) s

theorem spawnAll_cons (s : Schedule φ) (frames : List φ) (rest : List (List φ)) :
    s.spawnAll (frames :: rest) = (s.spawn frames).1.spawnAll rest := rfl

theorem size_spawn (s : Schedule φ) (frames : List φ) : (s.spawn frames).1.promises.size = s.promises.size + 1 := by
  simp [Schedule.spawn, add]

theorem size_spawnAll (s : Schedule φ) (tasks : List (List φ)) :
    (s.spawnAll tasks).promises.size = s.promises.size + tasks.length := by
  induction tasks generalizing s with
  | nil => rfl
  | cons frames rest ih =>
    rw [spawnAll_cons, ih, size_spawn, List.length_cons]
    omega

theorem Extends.spawnAll (s : Schedule φ) (tasks : List (List φ)) : s.Extends (s.spawnAll tasks) := by
  induction tasks generalizing s with
  | nil => exact .refl s
  | cons frames rest ih => exact (Extends.spawn s frames).trans (ih _)

theorem origin?_spawn (s : Schedule φ) (frames : List φ) :
    (s.spawn frames).1.origin? s.promises.size = some (.task frames) := by
  change (s.add { origin := .task frames }).1.origin? s.promises.size = _
  rw [origin?_add, if_pos rfl]

theorem origin?_spawnAll (s : Schedule φ) (tasks : List (List φ)) {index : Nat} (inside : index < tasks.length) :
    (s.spawnAll tasks).origin? (s.promises.size + index) = some (.task tasks[index]) := by
  induction tasks generalizing s index with
  | nil => cases inside
  | cons frames rest ih =>
    rw [spawnAll_cons]
    cases index with
    | zero =>
      have inside : s.promises.size < (s.spawn frames).1.promises.size := by rw [size_spawn]; exact Nat.lt_succ_self _
      rw [Nat.add_zero, (Extends.spawnAll _ rest).origin inside]
      exact origin?_spawn s frames
    | succ index =>
      have later := ih (s.spawn frames).1 (Nat.lt_of_succ_lt_succ inside)
      rw [size_spawn] at later
      rw [Nat.add_succ, ← Nat.succ_add]
      exact later

theorem outcome?_spawn (s : Schedule φ) (frames : List φ) : (s.spawn frames).1.outcome? s.promises.size = none := by
  change (s.add { origin := .task frames }).1.outcome? s.promises.size = none
  rw [outcome?_add, if_pos rfl]

theorem outcome?_spawnAll (s : Schedule φ) (tasks : List (List φ)) {index : Nat} (inside : index < tasks.length) :
    (s.spawnAll tasks).outcome? (s.promises.size + index) = none := by
  induction tasks generalizing s index with
  | nil => cases inside
  | cons frames rest ih =>
    rw [spawnAll_cons]
    cases index with
    | zero =>
      have inside : s.promises.size < (s.spawn frames).1.promises.size := by rw [size_spawn]; exact Nat.lt_succ_self _
      rw [Nat.add_zero, (Extends.spawnAll _ rest).outcome inside]
      exact outcome?_spawn s frames
    | succ index =>
      have later := ih (s.spawn frames).1 (Nat.lt_of_succ_lt_succ inside)
      rw [size_spawn] at later
      rw [Nat.add_succ, ← Nat.succ_add]
      exact later

theorem snd_join (s : Schedule φ) (members : List Nat) (patient : Bool) :
    (s.join members patient).2 = s.promises.size := by
  by_cases empty : members = []
  · subst empty; rfl
  · rw [join_members s empty]

theorem size_join (s : Schedule φ) (members : List Nat) (patient : Bool) :
    (s.join members patient).1.promises.size = s.promises.size + 1 := by
  by_cases empty : members = []
  · subst empty
    exact size_add s _
  · rw [join_members s empty, size_watchAll, size_add]

/-- The new promise of a join is open, and knows its members, unless it has none. -/
theorem origin?_join (s : Schedule φ) {members : List Nat} (nonempty : members ≠ []) (patient : Bool) :
    (s.join members patient).1.origin? s.promises.size = some (.join members members.length patient) ∧
      (s.join members patient).1.outcome? s.promises.size = none := by
  rw [join_members s nonempty, origin?_watchAll, outcome?_watchAll, origin?_add, outcome?_add, if_pos rfl, if_pos rfl]
  exact ⟨rfl, rfl⟩

theorem origin?_join_nil (s : Schedule φ) (patient : Bool) :
    (s.join [] patient).1.origin? s.promises.size = some .outside ∧
      (s.join [] patient).1.outcome? s.promises.size = some (.ok []) := by
  rw [join_nil]
  change (s.add _).1.origin? _ = _ ∧ (s.add _).1.outcome? _ = _
  rw [origin?_add, outcome?_add, if_pos rfl, if_pos rfl]
  exact ⟨rfl, rfl⟩

end Schedule

namespace Coordinator

/-- Whatever one coordinator finds, the other one finds as well. -/
structure Extends (c d : Coordinator) : Prop where
  found : ∀ {name place}, c.find? name = some place → d.find? name = some place
  provided : ∀ {place method}, (c.service place).provides? method = some true →
    (d.service place).provides? method = some true
  kept : ∀ {place}, (c.service place).provision ≠ .missing →
    (d.service place).provision = (c.service place).provision ∧
      (d.service place).execution = (c.service place).execution
  context : d.context = c.context

theorem Extends.refl (c : Coordinator) : c.Extends c := ⟨id, id, fun _ => ⟨rfl, rfl⟩, rfl⟩

theorem Extends.trans {c d e : Coordinator} (first : c.Extends d) (last : d.Extends e) : c.Extends e :=
  ⟨fun found => last.found (first.found found), fun provided => last.provided (first.provided provided),
    fun present => by
      obtain ⟨provision, execution⟩ := first.kept present
      obtain ⟨provision', execution'⟩ := last.kept (provision ▸ present)
      exact ⟨provision'.trans provision, execution'.trans execution⟩,
    last.context.trans first.context⟩

theorem inside_of_provision {c : Coordinator} {place : Nat} (present : (c.service place).provision ≠ .missing) :
    place < c.services.size := by
  apply Classical.byContradiction
  intro outside
  simp only [Coordinator.service, Array.getElem?_eq_none (Nat.le_of_not_lt outside), Option.getD_none] at present
  exact present rfl

theorem provision_of_provides {service : Service} {method : Value} {answer : Bool}
    (provided : service.provides? method = some answer) : service.provision ≠ .missing := by
  intro missing
  simp [Service.provides?, missing] at provided

theorem service_addService (c : Coordinator) (service : Service) {place : Nat} (inside : place < c.services.size) :
    (c.addService service).1.service place = c.service place := by
  simp only [Coordinator.service, Coordinator.addService, Array.getElem?_push, if_neg (Nat.ne_of_lt inside)]

theorem Extends.addService (c : Coordinator) (service : Service) : c.Extends (c.addService service).1 := by
  refine ⟨id, fun {place method} provided => ?_, fun {place} present => ?_, rfl⟩
  · rwa [service_addService c service (inside_of_provision (provision_of_provides provided))]
  · rw [service_addService c service (inside_of_provision present)]
    exact ⟨rfl, rfl⟩

theorem exposeIn_isSome {methods : List Method} (method : Method) {name : Value}
    (known : (methods.find? fun m => m.name.sameKey name).isSome = true) :
    ((Service.exposeIn methods method).find? fun m => m.name.sameKey name).isSome = true := by
  induction methods with
  | nil => cases known
  | cons first rest ih =>
    unfold Service.exposeIn
    cases hit : first.name.sameKey name with
    | true => split <;> simp [hit]
    | false =>
      simp only [List.find?_cons, hit] at known
      split
      · simpa only [List.find?_cons, hit] using known
      · simpa only [List.find?_cons, hit] using ih known

theorem provides?_expose {service : Service} (method : Method) {name : Value}
    (provided : service.provides? name = some true) : (service.expose method).provides? name = some true := by
  unfold Service.provides? at provided ⊢
  cases provision : service.provision with
  | missing => simp [provision] at provided
  | everything => simp [Service.expose, provision]
  | listed =>
    simp only [provision, Option.some.injEq] at provided
    simp only [Service.expose, provision, Service.method?, Option.some.injEq]
    exact exposeIn_isSome method provided

theorem service_expose (c : Coordinator) (place : Nat) (method : Method) (other : Nat) :
    (c.expose place method).service other = c.service other ∨
      ∃ added, (c.expose place method).service other = (c.service other).expose added := by
  simp only [Coordinator.service, Coordinator.expose, Array.getElem?_modify]
  split
  · cases c.services[other]? with
    | none => exact Or.inl rfl
    | some service => exact Or.inr ⟨_, rfl⟩
  · exact Or.inl rfl

theorem Extends.expose (c : Coordinator) (place : Nat) (method : Method) : c.Extends (c.expose place method) := by
  refine ⟨id, fun {other name} provided => ?_, fun {other} _ => ?_, rfl⟩
  · rcases service_expose c place method other with same | ⟨added, same⟩ <;> rw [same]
    · exact provided
    · exact provides?_expose added provided
  · rcases service_expose c place method other with same | ⟨added, same⟩ <;> rw [same] <;> exact ⟨rfl, rfl⟩

theorem Extends.register {c d : Coordinator} {name : Value} {place : Option Nat} {record : Record}
    (registered : c.register name place = .ok (d, record)) : c.Extends d := by
  unfold Coordinator.register at registered
  split at registered
  next text =>
    split at registered
    · cases registered
    · split at registered
      · cases registered
      · split at registered
        · cases registered
        · cases registered
          refine ⟨fun {name place} found => ?_, id, fun _ => ⟨rfl, rfl⟩, rfl⟩
          simp only [find?] at found ⊢
          rw [List.lookup_append, found]
          rfl
  next => cases registered

/-- A call whose fields stay as they are keeps its target. -/
theorem Extends.target {c d : Coordinator} (grown : c.Extends d) {s t : Store} {config : Value} {target : Target}
    (mapping : t.isMapping config = s.isMapping config) (fields : ∀ name, t.field config name = s.field config name)
    (aimed : c.target s config = .ok target) : d.target t config = .ok target := by
  obtain ⟨isMapping, same, named, name, asked, found, provided⟩ := target_ok.mp aimed
  refine target_ok.mpr ⟨mapping ▸ isMapping, same, ?_, name, ?_, grown.found found, grown.provided provided⟩
  · rwa [Store.Names, fields]
  · cases name <;> rwa [Store.Aims, fields]

end Coordinator

end Interaction
