import Interaction.Proofs.Dispatch
import Interaction.Proofs.Independence

/-! The history of a machine: the latest of the transitions that it made, as many as it may remember.
A transition is made where a machine without a state is run and where an event leads on, and nowhere
else; and each goes on from the target of the one before it, unless the machine was reset in between. -/

namespace Interaction

namespace Machine

variable {m n : Machine} {s d : Store} {o : Operation} {entered : Option Entrance}

theorem remember_append (limit : Option Nat) (history : List Passage) (p : Passage) :
    remember limit (remember limit history ++ [p]) = remember limit (history ++ [p]) := by
  cases limit with
  | none => rfl
  | some n =>
    simp only [remember, List.drop_append, List.length_append, List.length_drop, List.length_singleton, List.drop_drop]
    congr 2 <;> omega

/-- What is remembered is the end of a history, as long as the bound allows. -/
theorem remember_suffix (limit : Option Nat) (history : List Passage) : remember limit history <:+ history ∧
    (remember limit history).length = limit.elim history.length (min · history.length) := by
  cases limit with
  | none => exact ⟨List.suffix_rfl, rfl⟩
  | some n =>
    refine ⟨List.drop_suffix .., ?_⟩
    simp only [remember, List.length_drop, Option.elim_some]
    omega

/-- The passage that a machine makes through an entrance. -/
def passage (m : Machine) (s : Store) (e : Entrance) : Passage :=
  ⟨nameOf s m.current, nameOf s (some e.target), e.event⟩

/-- The transitions that operations make: the one into the initial state of a machine that is in no
state, and those by the first event that leads anywhere. -/
inductive Adds (m : Machine) (s : Store) : Operation → Passage → Prop where
  | activation {model state : Value} {initial : String} (paused : m.running = false) (loaded : m.model = some model)
      (outside : m.current = none) (named : s.field model "initial" = .text initial)
      (found : m.index.get? (.text initial) = some state) : Adds m s (.setRunning true) ⟨.null, .text initial, .null⟩
  | event {name : Scalar} {event target state : Value} {goto : String} (finds : m.Finds s name event target)
      (current : m.current = some state) (leads : s.field event "goto" = .text goto) :
      Adds m s (.fire (.scalar name)) ⟨s.field state "name", .text goto, .scalar name⟩

theorem Operates.history (operates : m.Operates s o n entered) : n.limit = m.limit ∧
    n.history = entered.elim m.history fun e => remember m.limit (m.history ++ [m.passage s e]) := by
  cases operates <;> exact ⟨rfl, rfl⟩

theorem entrance_run {e : Entrance} : m.entrance? s (.setRunning true) = some e ↔ m.running = false ∧ m.current = none ∧
    ∃ model, m.model = some model ∧ m.state? (s.field model "initial") = some e.target ∧ e = { target := e.target } := by
  simp only [entrance?, operate, setRunning, if_true, run]
  constructor
  · intro entered
    split at entered
    · cases entered
    · cases entered
    · cases entered
    next model paused loaded outside =>
      split at entered
      next state initial =>
        cases entered
        exact ⟨paused, outside, model, loaded, initial, rfl⟩
      · cases entered
  · rintro ⟨paused, outside, model, loaded, initial, same⟩
    rw [same]
    simp only [paused, outside, loaded, initial]

theorem entrance_load (m : Machine) (s : Store) (model : Value) : m.entrance? s (.load model) = none := by
  simp only [entrance?, operate]
  cases (m.load s model).2.2 <;> rfl

/-- Whether the states of a machine have the names in `d` by which they are in its index, and the
current one has a text for its name. -/
structure Named (m : Machine) (d : Store) : Prop where
  index : ∀ key state, (key, state) ∈ m.index → d.field state "name" = key
  current : ∀ state, m.current = some state → ∃ name, d.field state "name" = .text name

variable {documents : List Value}

/-- The passages that a machine makes are those by which its operations add to the history. -/
theorem passage_iff (named : m.Named d) (rests : m.RestsOn d documents) (kept : ∀ document ∈ documents, d.Keeps s document)
    (called : ∀ name, o = .fire name → ∃ x, name = .scalar x) (p : Passage) :
    (m.entrance? s o).map (m.passage s) = some p ↔ m.Adds s o p := by
  have target {name : String} {state : Value} (found : m.index.get? (.text name) = some state) :
      nameOf s (some state) = .text name := by
    have indexed : m.state? (.text name) = some state := found
    exact ((rests.found kept indexed).field "name").trans (named.index _ _ (Entries.mem_get? found))
  constructor
  · intro made
    obtain ⟨e, entered, rfl⟩ := Option.map_eq_some_iff.mp made
    cases o with
    | load model => cases (m.entrance_load s model).symm.trans entered
    | reset => cases entered
    | setRunning on =>
      cases on with
      | false => cases entered
      | true =>
        obtain ⟨paused, outside, model, loaded, initial, same⟩ := entrance_run.mp entered
        obtain ⟨name, isName, found⟩ := state?_some initial
        rw [same]
        simp only [passage, outside, target found]
        exact .activation paused loaded outside isName found
    | fire name =>
      obtain ⟨x, rfl⟩ := called name rfl
      obtain ⟨event, state, finds, rfl⟩ := entrance_fire.mp entered
      obtain ⟨goto, isName, found⟩ := finds.leads.goto
      obtain ⟨source, _, _, current, _, _⟩ := finds.first
      simp only [passage, through, current, target found]
      exact .event finds current isName
  · intro adds
    cases adds with
    | @activation model state initial paused loaded outside isName found =>
      have initially : m.state? (s.field model "initial") = some state := isName ▸ found
      have entered : m.entrance? s (.setRunning true) = some { target := state } :=
        entrance_run.mpr ⟨paused, outside, model, loaded, initially, rfl⟩
      rw [entered, Option.map_some]
      simp only [passage, outside, target found]
      rfl
    | @event name event target' state goto finds current leads =>
      obtain ⟨key, isName, found⟩ := finds.leads.goto
      cases leads.symm.trans isName
      rw [entrance_fire.mpr ⟨event, target', finds, rfl⟩, Option.map_some]
      simp only [passage, through, current, target found]
      rfl

/-- A passage leads to a state with a text for its name, and it comes from no state if and only if it is
the one into the initial state. -/
theorem Adds.texts {p : Passage} (adds : m.Adds s o p) (named : m.Named d) (rests : m.RestsOn d documents)
    (kept : ∀ document ∈ documents, d.Keeps s document) :
    (∃ name, p.target = .text name) ∧ (p.source = .null ↔ o = .setRunning true) := by
  cases adds with
  | activation paused loaded outside isName found => exact ⟨⟨_, rfl⟩, fun _ => rfl, fun _ => rfl⟩
  | event finds current leads =>
    obtain ⟨name, isName⟩ := named.current _ current
    rw [← (rests.current current s kept).field] at isName
    refine ⟨⟨_, rfl⟩, fun null => ?_, nofun⟩
    cases isName.symm.trans null

theorem Named.operate (named : m.Named d)
    (kept : ∀ document ∈ documents ++ o.documents, d.Keeps s document) : (m.operate s o).1.Named d := by
  have operates := m.operates s o
  constructor
  · intro key state member
    rcases operates.index member with old | ⟨model, rfl, lists⟩
    · exact named.index key state old
    · have model' := kept model (List.mem_append_right _ (List.mem_singleton_self model))
      obtain ⟨states, items, among⟩ := lists.among
      have below := model'.of_field "states"
      rw [model'.field, below.items] at items
      exact ((below.of_items items among).field "name").symm.trans lists.named
  · intro state current
    rw [operates.current] at current
    cases entered : m.entrance? s o with
    | some e =>
      rw [entered] at operates current
      obtain ⟨name, _, found⟩ := operates.enters
      cases current
      exact ⟨name, named.index _ _ (Entries.mem_get? found)⟩
    | none =>
      rw [entered, Option.map_none, Option.none_or] at current
      split at current
      · cases current
      · exact named.current state current

end Machine

/-- The passage that the machine makes at a milestone. -/
def Milestone.passage? : Milestone → Option Passage
  | .operate u o => u.machine.bind fun m => (m.entrance? u.store o).map (m.passage u.store)
  | _ => none

/-- The name of the state that milestones leave the machine in: the target of the last passage, or null if
there is none after the last reset. -/
def Milestone.standing (milestones : List Milestone) : Value :=
  ((milestones.reverse.takeWhile fun k => !k.clears).findSome? passage?).elim .null (·.target)

namespace Milestone

theorem standing_append (milestones : List Milestone) (k : Milestone) :
    standing (milestones ++ [k]) = if k.clears then .null else k.passage?.elim (standing milestones) (·.target) := by
  unfold standing
  rw [List.reverse_append, List.reverse_singleton, List.singleton_append, List.takeWhile_cons]
  cases k.clears with
  | true => rfl
  | false =>
    simp only [Bool.not_false, if_true, List.findSome?_cons, Bool.false_eq_true, if_false]
    cases k.passage? <;> rfl

theorem clears_nothing {k : Milestone} {p : Passage} (passage : k.passage? = some p) : k.clears = false := by
  cases k with
  | operate u o =>
    obtain ⟨m, machine, made⟩ := Option.bind_eq_some_iff.mp passage
    obtain ⟨e, entered, _⟩ := Option.map_eq_some_iff.mp made
    have operates := m.operates u.store o
    rw [entered] at operates
    simpa only [clears, machine, Option.any_some] using operates.clears_nothing
  | enter u task target => cases passage
  | place u task config whole values => cases passage

/-- After a passage the machine stays where it led until there is another passage or a reset. -/
theorem standing_after {before between : List Milestone} {k : Milestone} {p : Passage} (passage : k.passage? = some p)
    (quiet : ∀ j ∈ between, j.passage? = none) :
    standing (before ++ k :: between) = if between.any clears then .null else p.target := by
  induction between using List.reverseRecOn with
  | nil => simp only [standing_append, clears_nothing passage, passage]; rfl
  | append_singleton rest j ih =>
    have silent : j.passage? = none := quiet j (List.mem_append_right _ (List.mem_singleton_self j))
    have earlier := ih fun j member => quiet j (List.mem_append_left _ member)
    rw [← List.cons_append, ← List.append_assoc, standing_append, silent, Option.elim_none, earlier]
    simp only [List.any_append, List.any_cons, List.any_nil, Bool.or_false, Bool.or_eq_true]
    cases j.clears <;> simp

end Milestone

/-- What holds of the parts of a list holds of those of a longer one if it holds of the new one. -/
theorem parts_append {α : Type} {P : List α → α → Prop} {xs : List α} {x : α}
    (old : ∀ before y after, xs = before ++ y :: after → P before y) (new : P xs x) :
    ∀ before y after, xs ++ [x] = before ++ y :: after → P before y := by
  intro before y after same
  rcases List.eq_nil_or_concat after with rfl | ⟨init, last, rfl⟩
  · obtain ⟨rfl, last⟩ := List.append_inj' same rfl
    cases List.singleton_inj.mp last
    exact new
  · have longer : xs ++ [x] = (before ++ y :: init) ++ [last] := by simpa using same
    obtain ⟨shorter, _⟩ := List.append_inj' longer rfl
    exact old before y init shorter

namespace Chronicle

/-- The transitions that were made, in their order. -/
def passages (c : Chronicle) : List Passage :=
  c.milestones.filterMap Milestone.passage?

/-- Whether all events are called by scalars. -/
def Plain (milestones : List Milestone) : Prop :=
  ∀ u name, .operate u (.fire name) ∈ milestones → ∃ x, name = .scalar x

/-- Whether the machine remembers what it passed, and each passage is one that an operation may make, from the
state where the machine was. -/
structure Logs (c : Chronicle) (m : Machine) (d : Store) : Prop where
  named : m.Named d
  standing : Machine.nameOf d m.current = Milestone.standing c.milestones
  history : m.history = Machine.remember m.limit c.passages
  made : ∀ u o, .operate u o ∈ c.milestones → ∃ n, u.machine = some n ∧
    ∀ p, (Milestone.passage? (.operate u o) = some p ↔ n.Adds u.store o p) ∧
      (n.Adds u.store o p → (∃ name, p.target = .text name) ∧ (p.source = .null ↔ o = .setRunning true))
  source : ∀ before k after, c.milestones = before ++ k :: after → ∀ p, k.passage? = some p →
    p.source = Milestone.standing before

variable {c : Chronicle} {m : Machine} {d : Store}

theorem Logs.kept (logs : c.Logs m d) {o : Occasion}
    (silent : ∀ k, c.session.met? o = some k → k.passage? = none ∧ k.clears = false ∧ ∀ u operation, k ≠ .operate u operation) :
    (c.occur o).Logs m d := by
  cases met : c.session.met? o with
  | none =>
    have same : (c.occur o).milestones = c.milestones := by simp only [occur, met, Option.toList_none, List.append_nil]
    constructor
    case named => exact logs.named
    case standing =>
      rw [same]
      exact logs.standing
    case history =>
      rw [passages, same]
      exact logs.history
    case made =>
      rw [same]
      exact logs.made
    case source =>
      rw [same]
      exact logs.source
  | some k =>
    have more : (c.occur o).milestones = c.milestones ++ [k] := by simp only [occur, met, Option.toList_some]
    obtain ⟨still, lasting, other⟩ := silent k met
    constructor
    case named => exact logs.named
    case standing =>
      rw [more, Milestone.standing_append, still, lasting]
      exact logs.standing
    case history =>
      simpa only [passages, more, List.filterMap_append, List.filterMap_cons, still, List.filterMap_nil, List.append_nil]
        using logs.history
    case made =>
      intro u operation member
      rw [more] at member
      rcases List.mem_append.mp member with old | new
      · exact logs.made u operation old
      · exact absurd (List.mem_singleton.mp new).symm (other u operation)
    case source =>
      rw [more]
      apply parts_append logs.source
      intro p passage
      cases still.symm.trans passage

theorem Logs.operate (logs : c.Logs m d) (orderly : c.session.Orderly c.session.running) (machine : c.session.machine = some m)
    (rests : m.RestsOn d (c.operations.flatMap Operation.documents)) {o : Occasion} {u : Session} {operation : Operation}
    (met : c.session.met? o = some (.operate u operation)) (reads : Reads d (c.occur o).milestones)
    (plain : Plain (c.occur o).milestones) :
    (c.occur o).Logs (m.operate u.store operation).1 d := by
  have more : (c.occur o).milestones = c.milestones ++ [.operate u operation] := by simp only [occur, met, Option.toList_some]
  have here : u.machine = some m :=
    (congrArg Outline.machine (Session.meets_occur orderly met).calm.outline).trans machine
  have kept := reads c.milestones u operation [] more
  rw [List.flatMap_append, List.flatMap_singleton] at kept
  have old (document : Value) (member : document ∈ c.operations.flatMap Operation.documents) : d.Keeps u.store document :=
    kept document (List.mem_append_left _ member)
  have operates := m.operates u.store operation
  have passed : Milestone.passage? (.operate u operation) = (m.entrance? u.store operation).map (m.passage u.store) := by
    simp only [Milestone.passage?, here, Option.bind_some]
  have clears : Milestone.clears (.operate u operation) = m.clears operation := by
    simp only [Milestone.clears, here, Option.any_some]
  have source : Machine.nameOf u.store m.current = Machine.nameOf d m.current :=
    Machine.nameOf_congr fun v current => rests.current current u.store old
  -- The machine has read its model from containers that stay, so what it does now agrees with the document.
  constructor
  case named => exact logs.named.operate kept
  case standing =>
    rw [more, Milestone.standing_append, clears, passed, ← logs.standing, operates.current]
    cases entered : m.entrance? u.store operation with
    | none =>
      simp only [Option.map_none, Option.none_or, Option.elim_none]
      split <;> rfl
    | some e =>
      rw [entered] at operates
      obtain ⟨name, _, found⟩ := operates.enters
      have indexed : m.state? (.text name) = some e.target := found
      have target := rests.found old indexed
      simp only [operates.clears_nothing, Option.map_some, Option.some_or, Option.elim_some, Bool.false_eq_true, if_false]
      exact (target.field "name").symm
  case history =>
    obtain ⟨limit, history⟩ := operates.history
    rw [history, limit, passages, more, List.filterMap_append, List.filterMap_cons, passed, List.filterMap_nil]
    cases m.entrance? u.store operation with
    | none => simpa only [passages, Option.elim_none, Option.map_none, List.append_nil] using logs.history
    | some e =>
      simp only [Option.elim_some, Option.map_some, logs.history]
      exact Machine.remember_append ..
  case made =>
    intro v asked member
    rw [more] at member
    rcases List.mem_append.mp member with past | new
    · exact logs.made v asked past
    · cases List.mem_singleton.mp new
      refine ⟨m, here, fun p => ⟨?_, fun adds => adds.texts logs.named rests old⟩⟩
      rw [passed]
      refine Machine.passage_iff logs.named rests old (fun name same => plain u name ?_) p
      exact same ▸ more ▸ List.mem_append_right _ new
  case source =>
    rw [more]
    apply parts_append logs.source
    intro p passage
    rw [passed] at passage
    obtain ⟨e, _, rfl⟩ := Option.map_eq_some_iff.mp passage
    exact source.trans logs.standing

theorem Logs.occur (logs : c.Logs m d) (orderly : c.session.Orderly c.session.running) (machine : c.session.machine = some m)
    (rests : m.RestsOn d (c.operations.flatMap Operation.documents)) {o : Occasion}
    (reads : Reads d (c.occur o).milestones) (plain : Plain (c.occur o).milestones) :
    ∃ n, (c.occur o).session.machine = some n ∧ n.limit = m.limit ∧ (c.occur o).Logs n d := by
  have after := Session.machine_occur orderly o
  cases met : c.session.met? o with
  | none =>
    rw [met] at after
    exact ⟨m, after.trans machine, rfl, logs.kept (by simp [met])⟩
  | some k =>
    rw [met] at after
    cases k with
    | operate u operation =>
      have here : u.machine = some m :=
        (congrArg Outline.machine (Session.meets_occur orderly met).calm.outline).trans machine
      dsimp only at after
      rw [here] at after
      exact ⟨_, after, (m.operates u.store operation).history.1, logs.operate orderly machine rests met reads plain⟩
    | enter u task target =>
      refine ⟨m, after.trans machine, rfl, logs.kept fun k same => ?_⟩
      cases met.symm.trans same
      exact ⟨rfl, rfl, fun v asked other => by cases other⟩
    | place u task config whole values =>
      refine ⟨m, after.trans machine, rfl, logs.kept fun k same => ?_⟩
      cases met.symm.trans same
      exact ⟨rfl, rfl, fun v asked other => by cases other⟩

theorem Logs.start {s : Session} {limit : Option Nat} : ({ session := s } : Chronicle).Logs { limit } d where
  named := ⟨nofun, nofun⟩
  standing := rfl
  history := by
    cases limit with
    | none => rfl
    | some n => exact List.drop_nil.symm
  made _ _ member := nomatch member
  source before k after same := absurd same.symm (List.append_ne_nil_of_right_ne_nil before (List.cons_ne_nil k after))

/-- Along a course whose documents are kept, the machine remembers what it passed. -/
theorem logs_course {s : Session} (fresh : s.Fresh) {limit : Option Nat} (machine : s.machine = some { limit })
    (keyed : d.Keyed) (occasions : List Occasion) :
    let c := ({ session := s } : Chronicle).course occasions
    Reads d c.milestones → Plain c.milestones → ∃ m, c.session.machine = some m ∧ m.limit = limit ∧ c.Logs m d := by
  intro c
  let P (a : Chronicle) : Prop := Reads d a.milestones → Plain a.milestones →
    a.Takes { limit } d ∧ ∃ m, a.session.machine = some m ∧ m.limit = limit ∧ a.Logs m d
  have follow (a : Chronicle) (o : Occasion) (orderly : a.session.Orderly a.session.running) (known : P a) : P (a.occur o) := by
    intro reads plain
    have earlier : Plain a.milestones := fun u name member => plain u name (List.mem_append_left _ member)
    obtain ⟨takes, m, machine, bound, logs⟩ := known reads.first earlier
    have same : m = ({ limit } : Machine).course d a.operations := Option.some.inj (machine.symm.trans takes.machine)
    obtain ⟨n, after, kept, logs⟩ := logs.occur orderly machine (same ▸ takes.rests) reads plain
    exact ⟨takes.occur orderly keyed reads, n, after, kept.trans bound, logs⟩
  have start : P { session := s } := fun _ _ => ⟨Takes.start machine, { limit }, machine, rfl, Logs.start⟩
  intro reads plain
  exact ((along fresh.orderly start follow occasions).2 reads plain).2

/-- Between two passages in a row the machine stays where the first one led, unless it is reset. -/
theorem Logs.next (logs : c.Logs m d) {before between after : List Milestone} {k l : Milestone} {p q : Passage}
    (split : c.milestones = before ++ k :: (between ++ l :: after)) (first : k.passage? = some p) (last : l.passage? = some q)
    (quiet : ∀ j ∈ between, j.passage? = none) :
    q.source = if between.any Milestone.clears then .null else p.target := by
  rw [← Milestone.standing_after first quiet]
  exact logs.source (before ++ k :: between) l after (by simpa using split) q last

end Chronicle

namespace Session

/-- The history is the end of all transitions that were made, as far as it is remembered. -/
theorem history_faithful {s : Session} (fresh : s.Fresh) {limit : Option Nat} (machine : s.machine = some { limit })
    {d : Store} (keyed : d.Keyed) (occasions : List Occasion) :
    let c := ({ session := s } : Chronicle).course occasions
    Chronicle.Reads d c.milestones → Chronicle.Plain c.milestones →
      ∃ m, c.session.machine = some m ∧
        (m.history <:+ c.passages ∧ m.history.length = limit.elim c.passages.length (min · c.passages.length)) ∧
        (∀ u o, .operate u o ∈ c.milestones → ∃ n, u.machine = some n ∧
          ∀ p, (Milestone.passage? (.operate u o) = some p ↔ n.Adds u.store o p) ∧
            (n.Adds u.store o p → (∃ name, p.target = .text name) ∧ (p.source = .null ↔ o = .setRunning true))) ∧
        ∀ before k between l after p q, c.milestones = before ++ k :: (between ++ l :: after) →
          k.passage? = some p → l.passage? = some q → (∀ j ∈ between, j.passage? = none) →
            q.source = if between.any Milestone.clears then .null else p.target := by
  intro c reads plain
  obtain ⟨m, machine, bound, logs⟩ := Chronicle.logs_course fresh machine keyed occasions reads plain
  have remembered := Machine.remember_suffix m.limit c.passages
  rw [← logs.history, bound] at remembered
  refine ⟨m, machine, remembered, logs.made, ?_⟩
  intro before k between l after p q split first last quiet
  exact logs.next split first last quiet

/-- A machine that remembers two transitions, with a behaviour that refuses whatever it is asked for. -/
private def forgetful : Session where
  store := { cells := #[
    .map [(.text "initial", .text "A"), (.text "states", .tuple [.ref 1, .ref 3])],
    .map [(.text "name", .text "A"), (.text "events", .tuple [.ref 2])],
    .map [(.text "on", .text "go"), (.text "goto", .text "B")],
    .map [(.text "name", .text "B")]] }
  behavior := .canned .refuse .refuse
  machine := some { limit := some 2 }

/-- It enters two states, and the first one anew after a reset. -/
private def returning : List Occasion :=
  [.event (.load (.ref 0)), .event (.setRunning true), .event (.fire (.text "go")), .event (.setRunning false),
    .event .reset, .event (.setRunning true)]

private theorem forgetful_keyed : forgetful.store.Keyed := by
  rintro (_ | _ | place) entries held
  · cases held
  · cases held
  · match place with
    | 0 | 1 | 2 | 3 =>
      cases held
      simp [Store.container?]
    | _ + 4 => cases held

theorem forgetful_remembers : forgetful.Fresh ∧ forgetful.machine = some { limit := some 2 } ∧ forgetful.store.Keyed ∧
    let c := ({ session := forgetful } : Chronicle).course returning
    Chronicle.Reads forgetful.store c.milestones ∧ Chronicle.Plain c.milestones ∧ c.passages.length = 3 ∧
      ∃ m, c.session.machine = some m ∧ m.history <:+ c.passages ∧ m.history.length = 2 := by
  have fresh : forgetful.Fresh := ⟨rfl, rfl, rfl, rfl, rfl⟩
  let c := ({ session := forgetful } : Chronicle).course returning
  have reads : Chronicle.Reads forgetful.store c.milestones := by
    have stores : c.milestones.map (·.session.store) = List.replicate 6 forgetful.store := rfl
    exact Chronicle.reads_unwritten fun k member => List.eq_of_mem_replicate (stores ▸ List.mem_map_of_mem member)
  have plain : Chronicle.Plain c.milestones := by
    intro u name member
    have asked : .fire name ∈ c.operations := List.mem_filterMap.mpr ⟨_, member, rfl⟩
    have operations : c.operations =
        [.load (.ref 0), .setRunning true, .fire (.text "go"), .setRunning false, .reset, .setRunning true] := rfl
    rw [operations] at asked
    exact ⟨.text "go", by simpa using asked⟩
  obtain ⟨m, machine, ⟨suffix, length⟩, -⟩ := history_faithful fresh rfl forgetful_keyed returning reads plain
  exact ⟨fresh, rfl, forgetful_keyed, reads, plain, rfl, m, machine, suffix, length⟩

end Session

end Interaction
