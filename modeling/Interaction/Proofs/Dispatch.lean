import Interaction.Proofs.Lifecycle

/-! Events. A machine that runs goes on with the first event of its state that has the name and leads
to a state of the model that was loaded last. What stands before that one or after it has no effect,
and where there is none the machine stays as it is. -/

namespace Interaction

namespace Store

variable {s : Store} {v : Value}

/-- Whether nothing that is found by its content has a container in it: no key of a mapping, and no
item of a set. -/
structure Hashed (s : Store) : Prop where
  keyed : s.Keyed
  items : ∀ v items, s.cell? v = some (.set items) → ∀ item ∈ items, s.container? item = none

theorem isMapping_free (free : s.container? v = none) : s.isMapping v = false := by
  cases v with
  | ref place => cases free
  | _ => rfl

theorem members_items {items : List Value} (held : s.items? v = some items) : s.members? v = some items := by
  cases v with
  | scalar x => cases held
  | tuple _ => exact held
  | ref place =>
    simp only [items?] at held
    split at held <;> cases held
    next cell => simp only [members?, cell]

theorem truthy_items {items : List Value} (held : s.items? v = some items) : s.truthy v = !items.isEmpty := by
  cases v with
  | scalar x => cases held
  | tuple _ =>
    cases held
    rfl
  | ref place =>
    simp only [items?] at held
    split at held <;> cases held
    next cell => simp only [truthy, cell, Cell.isEmpty, Option.map_some, Option.getD_some]

theorem members_other (hashed : s.Hashed) (other : s.items? v = none) {members : List Value}
    (held : s.members? v = some members) : ∀ member ∈ members, s.isMapping member = false := by
  have scalars {α : Type} (f : α → Scalar) (xs : List α) :
      ∀ member ∈ xs.map fun x => Value.scalar (f x), s.isMapping member = false := by
    intro member among
    obtain ⟨x, _, rfl⟩ := List.mem_map.mp among
    rfl
  cases v with
  | scalar x =>
    cases x with
    | text text => cases held; exact scalars _ _
    | bytes bs => cases held; exact scalars _ _
    | _ => cases held
  | tuple items => cases other
  | ref place =>
    simp only [members?] at held
    split at held <;> cases held
    next items cell => simp only [items?, cell, reduceCtorEq] at other
    next entries cell =>
      intro member among
      obtain ⟨entry, isEntry, rfl⟩ := List.mem_map.mp among
      exact isMapping_free (hashed.keyed (.ref place) entries (by rw [entries?, cell]) entry isEntry)
    next cell => exact fun member among => isMapping_free (hashed.items (.ref place) _ cell member among)

theorem equal_scalar (s : Store) (v : Value) (x : Scalar) : ∃ answer, s.equal v (.scalar x) = .ok answer := by
  unfold equal
  split
  · exact ⟨false, rfl⟩
  · cases v <;> exact ⟨_, rfl⟩

theorem equal_text {t : String} : s.equal v (.text t) = .ok true ↔ v = .text t := by
  constructor
  · intro same
    unfold equal at same
    split at same
    · cases same
    · cases v with
      | scalar x =>
        have same : (.ok (x.same (.text t)) : Except Fault Bool) = .ok true := same
        exact congrArg Value.scalar (Scalar.same_text (Except.ok.inj same))
      | tuple items => cases same
      | ref place => cases same
  · rintro rfl
    exact congrArg Except.ok (Value.text_sameKey t)

end Store

namespace Machine

/-- Whether an event has a name and leads to a state. -/
structure Leads (m : Machine) (s : Store) (name : Scalar) (event target : Value) : Prop where
  mapping : s.isMapping event = true
  named : s.equal (s.field event "on") (.scalar name) = .ok true
  goto : ∃ key, s.field event "goto" = .text key ∧ m.index.get? (.text key) = some target

/-- Whether an event is the first to lead anywhere that a running machine comes to. -/
structure Finds (m : Machine) (s : Store) (name : Scalar) (event target : Value) : Prop where
  running : m.running = true
  leads : m.Leads s name event target
  first : ∃ state before after, m.current = some state ∧ eventsOf s state = .ok (before ++ event :: after) ∧
    ∀ earlier ∈ before, ∀ other, ¬ m.Leads s name earlier other

/-- Whether an event is the first one in the list of the state that a running machine is in to lead
anywhere. -/
structure Fires (m : Machine) (s : Store) (name : Scalar) (event target : Value) : Prop where
  running : m.running = true
  leads : m.Leads s name event target
  first : ∃ state before after, m.current = some state ∧ s.items? (s.field state "events") = some (before ++ event :: after) ∧
    ∀ earlier ∈ before, ∀ other, ¬ m.Leads s name earlier other

/-- The entrance to a state by an event. -/
def through (s : Store) (name : Scalar) (event target : Value) : Entrance :=
  { target, config := s.field event "do", event := .scalar name }

variable {m : Machine} {s : Store} {name : Scalar} {event target : Value}

theorem Leads.state (leads : m.Leads s name event target) : m.state? (s.field event "goto") = some target := by
  obtain ⟨key, named, found⟩ := leads.goto
  rw [named]
  exact found

theorem leadsTo?_head (leads : m.Leads s name event target) (rest : List Value) :
    m.leadsTo? s (.scalar name) (event :: rest) = .ok (some (through s name event target)) := by
  simp only [leadsTo?, hasName, leads.mapping, leads.named, leads.state, if_true]
  rfl

theorem leadsTo?_skip (quiet : ∀ target, ¬ m.Leads s name event target) (rest : List Value) :
    m.leadsTo? s (.scalar name) (event :: rest) = m.leadsTo? s (.scalar name) rest := by
  have answers : ∃ answer, hasName s event (.scalar name) = .ok answer := by
    unfold hasName
    split
    · exact s.equal_scalar ..
    · exact ⟨false, rfl⟩
  obtain ⟨answer, named⟩ := answers
  simp only [leadsTo?, named, bind, Except.bind]
  split
  next _ target goto =>
    obtain ⟨key, held, found⟩ := state?_some goto
    unfold hasName at named
    split at named
    next mapping => exact absurd ⟨mapping, named, key, held, found⟩ (quiet target)
    · cases named
  · rfl

/-- The first event that leads anywhere is taken, whatever stands around it. -/
theorem leadsTo?_first {before : List Value} (quiet : ∀ earlier ∈ before, ∀ other, ¬ m.Leads s name earlier other)
    (leads : m.Leads s name event target) (after : List Value) :
    m.leadsTo? s (.scalar name) (before ++ event :: after) = .ok (some (through s name event target)) := by
  induction before with
  | nil => exact leadsTo?_head leads after
  | cons earlier rest ih =>
    rw [List.cons_append, leadsTo?_skip (quiet earlier (List.mem_cons_self ..))]
    exact ih fun other member => quiet other (List.mem_cons_of_mem earlier member)

theorem leadsTo?_none {events : List Value} (quiet : ∀ event ∈ events, ∀ target, ¬ m.Leads s name event target) :
    m.leadsTo? s (.scalar name) events = .ok none := by
  induction events with
  | nil => rfl
  | cons first rest ih =>
    rw [leadsTo?_skip (quiet first (List.mem_cons_self ..))]
    exact ih fun other member => quiet other (List.mem_cons_of_mem first member)

theorem eventsOf_items {state : Value} {events : List Value} (held : s.items? (s.field state "events") = some events) :
    eventsOf s state = .ok events := by
  simp only [eventsOf, Store.truthy_items held, Store.members_items held]
  cases events <;> rfl

theorem eventsOf_other (hashed : s.Hashed) {state : Value} (other : s.items? (s.field state "events") = none)
    {events : List Value} (held : eventsOf s state = .ok events) :
    ∀ event ∈ events, ∀ target, ¬ m.Leads s name event target := by
  intro event among target leads
  unfold eventsOf at held
  dsimp only at held
  split at held
  · split at held <;> cases held
    next members =>
      have plain := Store.members_other hashed other members event among
      cases leads.mapping.symm.trans plain
  · cases held
    cases among

theorem first_or_none (m : Machine) (s : Store) (name : Scalar) (events : List Value) :
    (∀ event ∈ events, ∀ target, ¬ m.Leads s name event target) ∨
      ∃ before event after target, events = before ++ event :: after ∧
        (∀ earlier ∈ before, ∀ other, ¬ m.Leads s name earlier other) ∧ m.Leads s name event target := by
  induction events with
  | nil => exact Or.inl fun event member => nomatch member
  | cons first rest ih =>
    by_cases leads : ∃ target, m.Leads s name first target
    · obtain ⟨target, leads⟩ := leads
      exact Or.inr ⟨[], first, rest, target, rfl, fun earlier member => (nomatch member), leads⟩
    · have quiet := not_exists.mp leads
      rcases ih with all | ⟨before, event, after, target, rfl, earlier, leads⟩
      · exact Or.inl (List.forall_mem_cons.mpr ⟨quiet, all⟩)
      · exact Or.inr ⟨first :: before, event, after, target, rfl, List.forall_mem_cons.mpr ⟨quiet, earlier⟩, leads⟩

theorem fires_iff : (∃ event target, m.Fires s name event target) ↔
    m.running = true ∧ ∃ state events, m.current = some state ∧ s.items? (s.field state "events") = some events ∧
      ∃ event ∈ events, ∃ target, m.Leads s name event target := by
  constructor
  · rintro ⟨event, target, running, leads, state, before, after, current, held, -⟩
    exact ⟨running, state, _, current, held, event, List.mem_append_right _ (List.mem_cons_self ..), target, leads⟩
  · rintro ⟨running, state, events, current, held, event, among, target, leads⟩
    rcases first_or_none m s name events with quiet | ⟨before, event, after, target, rfl, quiet, leads⟩
    · exact absurd leads (quiet event among target)
    · exact ⟨event, target, running, leads, state, before, after, current, held, quiet⟩

theorem Fires.finds (fires : m.Fires s name event target) : m.Finds s name event target := by
  obtain ⟨state, before, after, current, held, quiet⟩ := fires.first
  exact ⟨fires.running, fires.leads, state, before, after, current, eventsOf_items held, quiet⟩

theorem Finds.fires (hashed : s.Hashed) (finds : m.Finds s name event target) : m.Fires s name event target := by
  obtain ⟨state, before, after, current, held, quiet⟩ := finds.first
  refine ⟨finds.running, finds.leads, state, before, after, current, ?_, quiet⟩
  cases items : s.items? (s.field state "events") with
  | some listed =>
    cases held.symm.trans (eventsOf_items items)
    rfl
  | none =>
    have member : event ∈ before ++ event :: after := List.mem_append_right _ (List.mem_cons_self ..)
    exact absurd finds.leads (eventsOf_other hashed items held event member target)

theorem Finds.fire (finds : m.Finds s name event target) : m.fire s (.scalar name) =
    ((m.enter s (through s name event target)).1, [(m.enter s (through s name event target)).2],
      .ok (some (through s name event target))) := by
  obtain ⟨state, before, after, current, held, quiet⟩ := finds.first
  simp only [Machine.fire, finds.running, current, held, leadsTo?_first quiet finds.leads]

/-- A machine that no event leads on stays as it is, and has nothing done. -/
theorem fire_stays (none : ¬ ∃ event target, m.Finds s name event target) :
    (m.fire s (.scalar name)).1 = m ∧ (m.fire s (.scalar name)).2.1.length ≤ 1 ∧
      ∀ entrance, (m.fire s (.scalar name)).2.2 ≠ .ok (some entrance) := by
  unfold Machine.fire
  split
  · exact ⟨rfl, Nat.zero_le 1, nofun⟩
  · exact ⟨rfl, Nat.zero_le 1, nofun⟩
  next state running current =>
    cases held : eventsOf s state with
    | error fault => exact ⟨rfl, Nat.zero_le 1, nofun⟩
    | ok events =>
      rcases first_or_none m s name events with quiet | ⟨before, event, after, target, rfl, quiet, leads⟩
      · simp only [leadsTo?_none quiet]
        exact ⟨trivial, Nat.le_refl 1, nofun⟩
      · exact absurd ⟨event, target, running, leads, state, before, after, current, held, quiet⟩ none

theorem entrance_fire {e : Entrance} : m.entrance? s (.fire (.scalar name)) = some e ↔
    ∃ event target, m.Finds s name event target ∧ e = through s name event target := by
  simp only [entrance?, operate]
  constructor
  · intro entered
    by_cases found : ∃ event target, m.Finds s name event target
    · obtain ⟨event, target, finds⟩ := found
      rw [finds.fire] at entered
      cases entered
      exact ⟨event, target, finds, rfl⟩
    · have idle := (fire_stays found).2.2
      generalize (m.fire s (.scalar name)).2.2 = answer at entered idle
      cases answer with
      | error fault => cases entered
      | ok entrance =>
        cases entered
        exact absurd rfl (idle e)
  · rintro ⟨event, target, finds, rfl⟩
    rw [finds.fire]

/-- The model and the index that an operation gives a machine. -/
def takes? (m : Machine) (s : Store) : Operation → Option (Value × Entries)
  | .load model =>
    match m.running, statesOf s model with
    | false, .ok states => some (model, (indexStates s [] states).1)
    | _, _ => none
  | _ => none

theorem operate_takes (m : Machine) (s : Store) (o : Operation) :
    ((m.operate s o).1.model, (m.operate s o).1.index) =
      ((m.takes? s o).map fun taken => (some taken.1, taken.2)).getD (m.model, m.index) := by
  have operates := m.operates s o
  cases o with
  | load model =>
    simp only [operate, load, takes?]
    cases m.running with
    | true => rfl
    | false =>
      cases statesOf s model with
      | error reason => rfl
      | ok states =>
        simp only [Bool.false_eq_true, if_false]
        split <;> rfl
  | _ =>
    generalize m.entrance? s _ = entered at operates
    generalize (m.operate s _).1 = n at operates
    cases operates <;> rfl

end Machine

/-- The model and the index that the machine is given at a milestone. -/
def Milestone.taken? : Milestone → Option (Value × Entries)
  | .operate u o => u.machine.bind fun m => m.takes? u.store o
  | _ => none

namespace Chronicle

/-- The model that was loaded last, with its index. -/
def lastTaken? (c : Chronicle) : Option (Value × Entries) :=
  (c.milestones.filterMap Milestone.taken?).getLast?

theorem lastTaken?_occur (c : Chronicle) (o : Occasion) :
    (c.occur o).lastTaken? = ((c.session.met? o).bind Milestone.taken?).or c.lastTaken? := by
  simp only [lastTaken?, filterMap_occur, List.getLast?_append]
  cases (c.session.met? o).bind Milestone.taken? <;> rfl

/-- Whether a machine has the model that was loaded last, and the index of that one. -/
structure Holds (c : Chronicle) (m : Machine) : Prop where
  machine : c.session.machine = some m
  taken : (m.model, m.index) = (c.lastTaken?.map fun taken => (some taken.1, taken.2)).getD (none, [])

theorem Holds.occur {c : Chronicle} {m : Machine} (holds : c.Holds m) (orderly : c.session.Orderly c.session.running)
    (o : Occasion) : ∃ n, (c.occur o).Holds n := by
  have machine := Session.machine_occur orderly o
  have kept (same : (c.session.occur o).machine = c.session.machine) (nothing : (c.session.met? o).bind Milestone.taken? = none) :
      (c.occur o).Holds m := by
    refine ⟨same.trans holds.machine, ?_⟩
    rw [lastTaken?_occur, nothing, Option.none_or]
    exact holds.taken
  cases met : c.session.met? o with
  | none =>
    rw [met] at machine
    exact ⟨m, kept machine (by rw [met]; rfl)⟩
  | some k =>
    rw [met] at machine
    cases k with
    | enter u task target => exact ⟨m, kept machine (by rw [met]; rfl)⟩
    | place u task config whole values => exact ⟨m, kept machine (by rw [met]; rfl)⟩
    | operate u operation =>
      have here : u.machine = some m :=
        (congrArg Outline.machine (Session.meets_occur orderly met).calm.outline).trans holds.machine
      dsimp only at machine
      rw [here] at machine
      refine ⟨(m.operate u.store operation).1, machine, ?_⟩
      have taken : (c.session.met? o).bind Milestone.taken? = m.takes? u.store operation := by
        simp only [met, Option.bind_some, Milestone.taken?, here]
      rw [Machine.operate_takes, lastTaken?_occur, taken, holds.taken]
      cases m.takes? u.store operation <;> rfl

theorem Holds.course {c : Chronicle} {m : Machine} (holds : c.Holds m) (orderly : c.session.Orderly c.session.running)
    (occasions : List Occasion) : ∃ n, (c.course occasions).Holds n :=
  (along orderly (P := fun c => ∃ m, c.Holds m) ⟨m, holds⟩ (fun _ o orderly ⟨_, holds⟩ => holds.occur orderly o) occasions).2

end Chronicle

namespace Session

variable {s : Session} {m : Machine} {name : Scalar} {event target : Value}

/-- The session of a machine that went on with an event, before behaviour is asked for. -/
def through (s : Session) (m : Machine) (name : Scalar) (event target : Value) : Session :=
  let entered := m.enter s.store (Machine.through s.store name event target)
  { s with machine := some entered.1 }.log entered.2

theorem fire_fires (machine : s.machine = some m) (fires : m.Fires s.store name event target) :
    s.fire (.scalar name) = (s.through m name event target).perform (Machine.through s.store name event target) := by
  simp only [Session.fire, machine, fires.finds.fire]
  rfl

theorem machine_fire (machine : s.machine = some m) (name : Value) :
    (s.fire name).1.machine = some (m.fire s.store name).1 := by
  have same := congrArg Outline.machine (s.outline_operate (.fire name))
  rw [machine] at same
  rw [fst_fire]
  exact same

/-- Nothing becomes of an event that leads nowhere, but that it may be reported. -/
theorem fire_idle (machine : s.machine = some m) (hashed : s.store.Hashed)
    (none : ¬ ∃ event target, m.Fires s.store name event target) : ∃ records : List Record, records.length ≤ 1 ∧
      (s.fire (.scalar name)).1 = { s with trace := records.map .reported ++ s.trace } := by
  have lost : ¬ ∃ event target, m.Finds s.store name event target := by
    rintro ⟨event, target, finds⟩
    exact none ⟨event, target, finds.fires hashed⟩
  obtain ⟨same, few, idle⟩ := Machine.fire_stays lost
  refine ⟨(m.fire s.store (.scalar name)).2.1.reverse, by rwa [List.length_reverse], ?_⟩
  have after : (s.fire (.scalar name)).1 = { s with machine := some m }.logAll (m.fire s.store (.scalar name)).2.1 := by
    simp only [Session.fire, machine, same]
    cases answer : (m.fire s.store (.scalar name)).2.2 with
    | error fault => rfl
    | ok entrance =>
      cases entrance with
      | none => rfl
      | some entrance => exact absurd answer (idle entrance)
  rw [after, logAll_eq, ← machine, List.map_reverse]

/-- Whatever a machine went through, it has the index of the model that was loaded last, and an event
takes it on if and only if it runs and is in a state with an event that has the name and leads to a state
of that index. Then it goes on by the first of these events, with a single transition that is remembered
under the name and whose configuration is that of the event; and if there is none, then nothing changes,
and no behaviour is asked for anything. -/
theorem events_dispatched {s : Session} (fresh : s.Fresh) {limit : Option Nat} (machine : s.machine = some { limit })
    (occasions : List Occasion) :
    let c := ({ session := s } : Chronicle).course occasions
    ∃ m, c.session.machine = some m ∧
      (m.model, m.index) = (c.lastTaken?.map fun taken => (some taken.1, taken.2)).getD (none, []) ∧
      ∀ name : Scalar,
        ((∃ event target, m.Fires c.session.store name event target) ↔
          m.running = true ∧ ∃ state events, m.current = some state ∧
            c.session.store.items? (c.session.store.field state "events") = some events ∧
              ∃ event ∈ events, ∃ target, m.Leads c.session.store name event target) ∧
        (∀ event target, m.Fires c.session.store name event target →
          c.session.fire (.scalar name) = (c.session.through m name event target).perform
            { target, config := c.session.store.field event "do", event := .scalar name } ∧
          (c.session.fire (.scalar name)).1.machine = some { m with
            current := some target
            history := Machine.remember m.limit (m.history ++ [⟨Machine.nameOf c.session.store m.current,
              c.session.store.field target "name", .scalar name⟩]) }) ∧
        (c.session.store.Hashed → (¬ ∃ event target, m.Fires c.session.store name event target) →
          ∃ records : List Record, records.length ≤ 1 ∧ (c.session.fire (.scalar name)).1 =
            { c.session with trace := records.map .reported ++ c.session.trace }) := by
  intro c
  have start : ({ session := s } : Chronicle).Holds { limit } := ⟨machine, rfl⟩
  obtain ⟨m, machine, taken⟩ := start.course fresh.orderly occasions
  refine ⟨m, machine, taken, fun name => ⟨Machine.fires_iff, ?_, fire_idle machine⟩⟩
  intro event target fires
  refine ⟨fire_fires machine fires, ?_⟩
  rw [machine_fire machine, fires.finds.fire]
  rfl

/-- A state with events that lead nowhere before and after the one that is taken, and one more after it. -/
private def crossing : Session where
  store := { cells := #[
    .map [(.text "initial", .text "A"), (.text "states", .tuple [.ref 1, .ref 2])],
    .map [(.text "name", .text "A"), (.text "events", .tuple [.text "go", .ref 3, .ref 4, .ref 5, .ref 6])],
    .map [(.text "name", .text "B")],
    .map [(.text "on", .text "go"), (.text "goto", .int 5)],
    .map [(.text "on", .text "go"), (.text "goto", .text "Z")],
    .map [(.text "on", .text "go"), (.text "goto", .text "B")],
    .map [(.text "on", .text "go"), (.text "goto", .text "A")]] }
  machine := some {}

private def atCrossing : Machine :=
  { model := some (.ref 0), index := [(.text "A", .ref 1), (.text "B", .ref 2)], current := some (.ref 1)
    running := true, history := [⟨.null, .text "A", .null⟩] }

private theorem crossing_hashed : crossing.store.Hashed := by
  constructor
  · rintro (_ | _ | place) entries held
    · cases held
    · cases held
    · match place with
      | 0 | 1 | 2 | 3 | 4 | 5 | 6 =>
        cases held
        simp [Store.container?]
      | _ + 7 => cases held
  · rintro (_ | _ | place) items held
    · cases held
    · cases held
    · match place with
      | 0 | 1 | 2 | 3 | 4 | 5 | 6 => cases held
      | _ + 7 => cases held

private theorem crossing_fires : atCrossing.Fires crossing.store (.text "go") (.ref 5) (.ref 2) := by
  refine ⟨rfl, ⟨rfl, rfl, "B", rfl, rfl⟩, .ref 1, [.text "go", .ref 3, .ref 4], [.ref 6], rfl, rfl, ?_⟩
  have none : ∀ earlier ∈ [.text "go", .ref 3, .ref 4], ¬ crossing.store.isMapping earlier = true ∨
      atCrossing.state? (crossing.store.field earlier "goto") = none := by decide
  intro earlier member other leads
  rcases none earlier member with plain | nowhere
  · exact plain leads.mapping
  · cases leads.state.symm.trans nowhere

private theorem crossing_stays : ¬ ∃ event target, atCrossing.Fires crossing.store (.text "stop") event target := by
  rintro ⟨event, target, -, leads, state, before, after, current, held, -⟩
  cases current
  have same : [.text "go", .ref 3, .ref 4, .ref 5, .ref 6] = before ++ event :: after := Option.some.inj held
  have among : event ∈ [.text "go", .ref 3, .ref 4, .ref 5, .ref 6] :=
    same ▸ List.mem_append_right before (List.mem_cons_self ..)
  have called : crossing.store.field event "on" = .text "stop" := Store.equal_text.mp leads.named
  have apart : ∀ event ∈ [.text "go", .ref 3, .ref 4, .ref 5, .ref 6],
      (crossing.store.field event "on").text? ≠ some "stop" := by decide
  exact apart event among (congrArg Value.text? called)

theorem crossing_dispatched : crossing.Fresh ∧ crossing.machine = some { limit := some 100 } ∧
    let c := ({ session := crossing } : Chronicle).course [.event (.load (.ref 0)), .event (.setRunning true)]
    (c.session.fire (.text "go")).1.machine = some { atCrossing with
      current := some (.ref 2), history := [⟨.null, .text "A", .null⟩, ⟨.text "A", .text "B", .text "go"⟩] } ∧
    (c.session.fire (.text "stop")).1.machine = some atCrossing := by
  have fresh : crossing.Fresh := ⟨rfl, rfl, rfl, rfl, rfl⟩
  have start : crossing.machine = some { limit := some 100 } := rfl
  obtain ⟨m, machine, -, each⟩ := events_dispatched fresh start
    [.event (.load (.ref 0)), .event (.setRunning true)]
  cases machine
  refine ⟨fresh, start, ((each (.text "go")).2.1 _ _ crossing_fires).2, ?_⟩
  obtain ⟨records, -, same⟩ := (each (.text "stop")).2.2 crossing_hashed crossing_stays
  exact congrArg Session.machine same

end Session

end Interaction
