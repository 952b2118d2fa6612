import Interaction.Proofs.Lifecycle

/-! The machine takes its course whatever becomes of behaviour. It depends on what is asked of it
and on the documents that it is given, and on nothing else of the session around it. -/

namespace Interaction

def Operation.documents : Operation → List Value
  | .load model => [model]
  | .setRunning _ => []
  | .reset => []
  | .fire name => [name]

namespace Machine

/-- Whether a store that keeps some documents keeps a value with them. -/
def Rests (d : Store) (documents : List Value) (v : Value) : Prop :=
  ∀ t, (∀ document ∈ documents, d.Keeps t document) → d.Keeps t v

/-- Whether all that a machine reads rests on some documents. -/
structure RestsOn (m : Machine) (d : Store) (documents : List Value) : Prop where
  model : ∀ {v}, m.model = some v → Rests d documents v
  current : ∀ {v}, m.current = some v → Rests d documents v
  index : ∀ {key v}, (key, v) ∈ m.index → Rests d documents v

theorem Rests.more {d : Store} {documents : List Value} {v : Value} (rests : Rests d documents v) (others : List Value) :
    Rests d (documents ++ others) v :=
  fun t kept => rests t fun document member => kept document (List.mem_append_left _ member)

section

variable {d t : Store}

theorem nameOf_congr {state : Option Value} (kept : ∀ v, state = some v → d.Keeps t v) : nameOf t state = nameOf d state := by
  cases state with
  | none => rfl
  | some v => exact (kept v rfl).field "name"

theorem statesOf_congr {model : Value} (kept : d.Keeps t model) : statesOf t model = statesOf d model := by
  unfold statesOf
  rw [kept.isMapping, kept.field, (kept.of_field "states").items]

theorem indexStates_congr {states : List Value} (kept : ∀ state ∈ states, d.Keeps t state) (index : Entries) :
    indexStates t index states = indexStates d index states := by
  induction states generalizing index with
  | nil => rfl
  | cons state rest ih =>
    have first := kept state (List.mem_cons_self ..)
    have later := ih fun other member => kept other (List.mem_cons_of_mem state member)
    simp only [indexStates, first.isMapping, first.field, (first.of_field "name").container, later]

theorem load_congr (m : Machine) {model : Value} (kept : d.Keeps t model) :
    (m.load t model).1 = (m.load d model).1 ∧ (m.load t model).2.2 = (m.load d model).2.2 := by
  unfold load
  split
  · exact ⟨rfl, rfl⟩
  · rw [statesOf_congr kept]
    cases held : statesOf d model with
    | error reason => exact ⟨rfl, rfl⟩
    | ok states =>
      have each : ∀ state ∈ states, d.Keeps t state := by
        intro state member
        unfold statesOf at held
        split at held
        · cases held
        · split at held <;> cases held
          next items => exact (kept.of_field "states").of_items items member
      dsimp only
      rw [indexStates_congr each]
      split <;> simp only [and_self]

theorem enter_congr {m : Machine} {e : Entrance} (target : d.Keeps t e.target)
    (current : ∀ v, m.current = some v → d.Keeps t v) : (m.enter t e).1 = (m.enter d e).1 := by
  have after : nameOf t (some e.target) = nameOf d (some e.target) := target.field "name"
  simp only [enter, nameOf_congr current, after]

theorem hasName_congr {event name : Value} (event' : d.Keeps t event) (name' : d.Keeps t name) :
    hasName t event name = hasName d event name := by
  unfold hasName
  rw [event'.isMapping, event'.field, (event'.of_field "on").equal name']

theorem leadsTo?_congr (m : Machine) {name : Value} (name' : d.Keeps t name) {events : List Value}
    (kept : ∀ event ∈ events, d.Keeps t event) : m.leadsTo? t name events = m.leadsTo? d name events := by
  induction events with
  | nil => rfl
  | cons event rest ih =>
    have first := kept event (List.mem_cons_self ..)
    have later := ih fun other member => kept other (List.mem_cons_of_mem event member)
    simp only [leadsTo?, hasName_congr first name', first.field, later]

theorem eventsOf_congr {state : Value} (kept : d.Keeps t state) : eventsOf t state = eventsOf d state := by
  have below := kept.of_field "events"
  simp only [eventsOf, kept.field, below.truthy, below.members, below.kind]

theorem eventsOf_kept (keyed : d.Keyed) {state : Value} (kept : d.Keeps t state) {events : List Value}
    (held : eventsOf d state = .ok events) : ∀ event ∈ events, d.Keeps t event := by
  unfold eventsOf at held
  dsimp only at held
  split at held
  · split at held <;> cases held
    next members => exact (kept.of_field "events").of_members keyed members
  · cases held
    simp

end

section

variable {m : Machine} {d t : Store} {documents : List Value}

theorem RestsOn.found (rests : m.RestsOn d documents) (kept : ∀ document ∈ documents, d.Keeps t document) {name state : Value}
    (held : m.state? name = some state) : d.Keeps t state := by
  obtain ⟨_, _, indexed⟩ := state?_some held
  exact rests.index (Entries.mem_get? indexed) t kept

theorem run_congr (rests : m.RestsOn d documents) (kept : ∀ document ∈ documents, d.Keeps t document) :
    (m.run t).1 = (m.run d).1 := by
  unfold run
  split
  · rfl
  · rfl
  · dsimp only
  next model paused loaded current =>
    have same := (rests.model loaded t kept).field "initial"
    dsimp only
    rw [same]
    split
    next state initial =>
      apply enter_congr (rests.found kept initial)
      intro v held
      cases current.symm.trans held
    · dsimp only

theorem fire_congr (keyed : d.Keyed) (rests : m.RestsOn d documents) {name : Value}
    (kept : ∀ document ∈ documents ++ [name], d.Keeps t document) : (m.fire t name).1 = (m.fire d name).1 := by
  have old (document : Value) (member : document ∈ documents) : d.Keeps t document :=
    kept document (List.mem_append_left _ member)
  have name' : d.Keeps t name := kept name (List.mem_append_right _ (List.mem_singleton_self name))
  unfold fire
  split
  · rfl
  · rfl
  next state running current =>
    have state' := rests.current current t old
    rw [eventsOf_congr state']
    cases held : eventsOf d state with
    | error fault => rfl
    | ok events =>
      dsimp only
      rw [m.leadsTo?_congr name' (eventsOf_kept keyed state' held)]
      cases leads : m.leadsTo? d name events with
      | error fault => rfl
      | ok entrance =>
        cases entrance with
        | none => dsimp only
        | some e =>
          obtain ⟨_, _, _, goto, _⟩ := leadsTo?_some leads
          apply enter_congr (rests.found old goto)
          intro v held
          exact rests.current held t old

/-- A machine carries out an operation in one store as in another one that keeps all that it reads. -/
theorem operate_congr (keyed : d.Keyed) (rests : m.RestsOn d documents) {o : Operation}
    (kept : ∀ document ∈ documents ++ o.documents, d.Keeps t document) : (m.operate t o).1 = (m.operate d o).1 := by
  have old (document : Value) (member : document ∈ documents) : d.Keeps t document :=
    kept document (List.mem_append_left _ member)
  cases o with
  | load model => exact (m.load_congr (kept model (List.mem_append_right _ (List.mem_singleton_self model)))).1
  | setRunning on =>
    cases on with
    | false => simp only [operate, setRunning, pause, Bool.false_eq_true, if_false]
    | true => exact run_congr rests old
  | reset =>
    simp only [operate, Machine.reset]
    split <;> dsimp only
  | fire name => exact fire_congr keyed rests kept

theorem Operates.model {o : Operation} {n : Machine} {entered : Option Entrance} (operates : m.Operates d o n entered)
    {v : Value} (loaded : n.model = some v) : m.model = some v ∨ o = .load v := by
  cases operates with
  | loaded _ _ =>
    cases loaded
    exact Or.inr rfl
  | _ => exact Or.inl loaded

theorem RestsOn.operate (rests : m.RestsOn d documents) (o : Operation) :
    (m.operate d o).1.RestsOn d (documents ++ o.documents) := by
  have operates := m.operates d o
  constructor
  case model =>
    intro v loaded
    rcases operates.model loaded with old | rfl
    · exact (rests.model old).more _
    · intro t kept
      exact kept v (List.mem_append_right _ (List.mem_singleton_self v))
  case current =>
    intro v current
    rw [operates.current] at current
    cases entered : m.entrance? d o with
    | some e =>
      rw [entered] at operates current
      obtain ⟨_, _, indexed⟩ := operates.enters
      cases current
      exact (rests.index (Entries.mem_get? indexed)).more _
    | none =>
      rw [entered, Option.map_none, Option.none_or] at current
      split at current
      · cases current
      · exact (rests.current current).more _
  case index =>
    intro key v member
    rcases operates.index member with old | ⟨model, rfl, lists⟩
    · exact (rests.index old).more _
    · intro t kept
      obtain ⟨states, items, among⟩ := lists.among
      have model' := kept model (List.mem_append_right _ (List.mem_singleton_self model))
      exact (model'.of_field "states").of_items items among

/-- What becomes of a machine that is asked for one thing after the other. -/
def course (m : Machine) (d : Store) (operations : List Operation) : Machine :=
  operations.foldl (fun m o => (m.operate d o).1) m

end

end Machine

def Milestone.operation? : Milestone → Option Operation
  | .operate _ o => some o
  | _ => none

namespace Chronicle

def operations (c : Chronicle) : List Operation :=
  c.milestones.filterMap Milestone.operation?

/-- Whether, whenever the machine is asked for something, the documents that it was given hold what
they hold in `d`. -/
def Reads (d : Store) (milestones : List Milestone) : Prop :=
  ∀ before u o after, milestones = before ++ .operate u o :: after →
    ∀ document ∈ (before.filterMap Milestone.operation? ++ [o]).flatMap Operation.documents, d.Keeps u.store document

theorem Reads.first {d : Store} {first last : List Milestone} (reads : Reads d (first ++ last)) : Reads d first := by
  intro before u o after same
  apply reads before u o (after ++ last)
  rw [same, List.append_assoc, List.cons_append]

theorem reads_unwritten {d : Store} {milestones : List Milestone} (unwritten : ∀ k ∈ milestones, k.session.store = d) :
    Reads d milestones := by
  rintro before u o after rfl document _
  have same : u.store = d := unwritten _ (List.mem_append_right before (List.mem_cons_self ..))
  exact same ▸ Store.keeps_refl _ document

/-- Whether the machine is what its operations make of it in `d`. -/
structure Takes (c : Chronicle) (m : Machine) (d : Store) : Prop where
  machine : c.session.machine = some (m.course d c.operations)
  rests : (m.course d c.operations).RestsOn d (c.operations.flatMap Operation.documents)

variable {c : Chronicle} {m : Machine} {d : Store}

theorem Takes.kept (takes : c.Takes m d) {o : Occasion} (still : (c.session.occur o).machine = c.session.machine)
    (silent : ∀ k, c.session.met? o = some k → k.operation? = none) : (c.occur o).Takes m d := by
  have same : (c.occur o).operations = c.operations := by
    unfold operations occur
    rw [List.filterMap_append]
    cases met : c.session.met? o with
    | none => simp
    | some k => simp [silent k met]
  refine ⟨?_, ?_⟩
  · rw [same]
    exact still.trans takes.machine
  · rw [same]
    exact takes.rests

theorem Takes.operate (takes : c.Takes m d) (orderly : c.session.Orderly c.session.running) (keyed : d.Keyed)
    {o : Occasion} {u : Session} {operation : Operation} (met : c.session.met? o = some (.operate u operation))
    (reads : Reads d (c.occur o).milestones) : (c.occur o).Takes m d := by
  have last : (c.occur o).milestones = c.milestones ++ [.operate u operation] := by simp [occur, met]
  have asked : (c.occur o).operations = c.operations ++ [operation] := by simp [operations, last, Milestone.operation?]
  have here : u.machine = some (m.course d c.operations) :=
    (congrArg Outline.machine (Session.meets_occur orderly met).calm.outline).trans takes.machine
  have kept := reads c.milestones u operation [] last
  rw [List.flatMap_append, List.flatMap_singleton] at kept
  have machine := Session.machine_occur orderly o
  rw [met] at machine
  dsimp only at machine
  rw [here, Option.map_some, Machine.operate_congr keyed takes.rests kept] at machine
  constructor
  · rw [asked, Machine.course, List.foldl_append]
    exact machine
  · rw [asked, Machine.course, List.foldl_append, List.flatMap_append, List.flatMap_singleton]
    exact takes.rests.operate operation

theorem Takes.occur (takes : c.Takes m d) (orderly : c.session.Orderly c.session.running) (keyed : d.Keyed)
    {o : Occasion} (reads : Reads d (c.occur o).milestones) : (c.occur o).Takes m d := by
  have machine := Session.machine_occur orderly o
  cases met : c.session.met? o with
  | none =>
    rw [met] at machine
    exact takes.kept machine (by simp [met])
  | some k =>
    rw [met] at machine
    cases k with
    | operate u operation => exact takes.operate orderly keyed met reads
    | enter u task target =>
      apply takes.kept machine
      intro k same
      cases met.symm.trans same
      rfl
    | place u task config whole values =>
      apply takes.kept machine
      intro k same
      cases met.symm.trans same
      rfl

/-- A machine is what its operations make of it as long as its documents are kept for them. -/
theorem Takes.course (takes : c.Takes m d) (orderly : c.session.Orderly c.session.running) (keyed : d.Keyed)
    (occasions : List Occasion) (reads : Reads d (c.course occasions).milestones) : (c.course occasions).Takes m d := by
  have follow (a : Chronicle) (o : Occasion) (orderly : a.session.Orderly a.session.running)
      (known : Reads d a.milestones → a.Takes m d) (reads : Reads d (a.occur o).milestones) : (a.occur o).Takes m d :=
    (known reads.first).occur orderly keyed reads
  exact (along orderly (P := fun a => Reads d a.milestones → a.Takes m d) (fun _ => takes) follow occasions).2 reads

theorem Takes.start {s : Session} {limit : Option Nat} (machine : s.machine = some { limit }) :
    ({ session := s } : Chronicle).Takes { limit } d where
  machine := machine
  rests := ⟨nofun, nofun, nofun⟩

end Chronicle

namespace Session

/-- Two machines that are asked for the same are the same after it, whatever behaviour they have, what
becomes of it, and when: they run or not alike, have the same model, state, index and history, and load
what they are given with the same result. -/
theorem machine_independent {s t : Session} (first : s.Fresh) (second : t.Fresh) {limit : Option Nat}
    (machine : s.machine = some { limit }) (other : t.machine = some { limit }) {d : Store} (keyed : d.Keyed)
    (one two : List Occasion) :
    let a := ({ session := s } : Chronicle).course one
    let b := ({ session := t } : Chronicle).course two
    a.operations = b.operations → Chronicle.Reads d a.milestones → Chronicle.Reads d b.milestones →
      (∃ m, a.session.machine = some m ∧ b.session.machine = some m) ∧
        ∀ model, d.Keeps a.session.store model → d.Keeps b.session.store model →
          (a.session.load model).2 = (b.session.load model).2 := by
  intro a b same reads others
  have left := ((Chronicle.Takes.start machine).course first.orderly keyed one reads).machine
  have right := ((Chronicle.Takes.start other).course second.orderly keyed two others).machine
  rw [show (Chronicle.course _ two).operations = _ from same.symm] at right
  refine ⟨⟨_, left, right⟩, ?_⟩
  intro model kept kept'
  simp only [Session.load, a, b, left, right]
  exact ((Machine.load_congr _ kept).2).trans (Machine.load_congr _ kept').2.symm

/-- A machine without behaviour. -/
private def alone : Session where
  store := { cells := #[
    .map [(.text "initial", .text "A"), (.text "states", .tuple [.ref 1, .ref 3])],
    .map [(.text "name", .text "A"), (.text "events", .tuple [.ref 2])],
    .map [(.text "on", .text "go"), (.text "goto", .text "B"), (.text "do", .text "leave")],
    .map [(.text "name", .text "B")]] }
  machine := some {}

/-- The same machine, with a behaviour of states that does not end and a behaviour of transitions that
is refused. -/
private def attended : Session :=
  { alone with behavior := .canned .defer .refuse }

private def withBehavior : Chronicle :=
  ({ session := attended } : Chronicle).course
    [.event (.load (.ref 0)), .event (.setRunning true), .event .drain, .event .step, .event (.fire (.text "go"))]

private def withoutBehavior : Chronicle :=
  ({ session := alone } : Chronicle).course
    [.event (.load (.ref 0)), .event (.setRunning true), .event (.fire (.text "go"))]

private theorem alone_keyed : alone.store.Keyed := by
  rintro (_ | _ | place) entries held
  · cases held
  · cases held
  · match place with
    | 0 | 1 | 2 | 3 =>
      cases held
      simp [Store.container?]
    | _ + 4 => cases held

theorem attended_independent : attended.Fresh ∧ alone.Fresh ∧ alone.store.Keyed ∧
    withBehavior.operations = withoutBehavior.operations ∧
      withBehavior.session.schedule.promises.size = 2 ∧ withoutBehavior.session.schedule.promises.size = 0 ∧
        ∃ m, withBehavior.session.machine = some m ∧ withoutBehavior.session.machine = some m ∧
          m.current = some (.ref 3) := by
  have first : attended.Fresh := ⟨rfl, rfl, rfl, rfl, rfl⟩
  have second : alone.Fresh := ⟨rfl, rfl, rfl, rfl, rfl⟩
  have one : Chronicle.Reads alone.store withBehavior.milestones := by
    have stores : withBehavior.milestones.map (·.session.store) = List.replicate 3 alone.store := rfl
    exact Chronicle.reads_unwritten fun k member => List.eq_of_mem_replicate (stores ▸ List.mem_map_of_mem member)
  have two : Chronicle.Reads alone.store withoutBehavior.milestones := by
    have stores : withoutBehavior.milestones.map (·.session.store) = List.replicate 3 alone.store := rfl
    exact Chronicle.reads_unwritten fun k member => List.eq_of_mem_replicate (stores ▸ List.mem_map_of_mem member)
  obtain ⟨⟨m, left, right⟩, -⟩ := machine_independent first second rfl rfl alone_keyed _ _ rfl one two
  have current : (withoutBehavior.session.machine.map (·.current)) = some (some (.ref 3)) := rfl
  rw [show withoutBehavior.session.machine = some m from right] at current
  exact ⟨first, second, alone_keyed, rfl, rfl, rfl, m, left, right, Option.some.inj current⟩

end Session

end Interaction
