import Interaction.Proofs.Chronicle
import Interaction.Proofs.Keeping
import Interaction.Proofs.Keys

/-! The life of a machine. While it runs it has a model and is in a state; it is in none exactly
if it has entered none since it was last reset; and the state that it is in is the one that its
index held under the name by which it was entered. -/

namespace Interaction

namespace Machine

/-- Whether a model has a state that is called so. -/
structure Lists (s : Store) (model key state : Value) : Prop where
  mapping : s.isMapping state = true
  named : s.field state "name" = key
  among : ∃ states, s.items? (s.field model "states") = some states ∧ state ∈ states

/-- Whether an operation is a reset that takes place while the machine is paused. -/
def clears (m : Machine) : Operation → Bool
  | .reset => !m.running
  | _ => false

inductive Operates (m : Machine) (s : Store) : Operation → Machine → Option Entrance → Prop where
  | idle {o : Operation} (kept : o = .reset → m.running = true) : Operates m s o m none
  | loaded {model : Value} {states : List Value} (paused : m.running = false) (held : statesOf s model = .ok states) :
      Operates m s (.load model) { m with model := some model, index := (indexStates s [] states).1 } none
  | resumed {model state : Value} (loaded : m.model = some model) (current : m.current = some state) :
      Operates m s (.setRunning true) { m with running := true } none
  | started {model state : Value} (loaded : m.model = some model)
      (initial : m.state? (s.field model "initial") = some state) :
      Operates m s (.setRunning true) ({ m with running := true }.enter s { target := state }).1 (some { target := state })
  | paused : Operates m s (.setRunning false) { m with running := false } none
  | reset (paused : m.running = false) : Operates m s .reset { m with current := none } none
  | fired {name current target entry : Value} {events : List Value} (running : m.running = true)
      (inState : m.current = some current) (held : eventsOf s current = .ok events) (among : entry ∈ events)
      (fits : hasName s entry name = .ok true) (goto : m.state? (s.field entry "goto") = some target) :
      Operates m s (.fire name) (m.enter s { target, config := s.field entry "do", event := name }).1
        (some { target, config := s.field entry "do", event := name })

variable {m : Machine} {s : Store}

theorem leadsTo?_some {name : Value} {events : List Value} {e : Entrance} (leads : m.leadsTo? s name events = .ok (some e)) :
    ∃ entry ∈ events, hasName s entry name = .ok true ∧ m.state? (s.field entry "goto") = some e.target ∧
      e = { target := e.target, config := s.field entry "do", event := name } := by
  induction events with
  | nil => cases leads
  | cons entry rest ih =>
    simp only [leadsTo?, bind, Except.bind] at leads
    have later (leads : m.leadsTo? s name rest = .ok (some e)) : ∃ found ∈ entry :: rest, hasName s found name = .ok true ∧
        m.state? (s.field found "goto") = some e.target ∧
          e = { target := e.target, config := s.field found "do", event := name } := by
      obtain ⟨found, member, same⟩ := ih leads
      exact ⟨found, List.mem_cons_of_mem entry member, same⟩
    cases named : hasName s entry name with
    | error fault => simp [named] at leads
    | ok fits =>
      simp only [named] at leads
      cases goto : m.state? (s.field entry "goto") with
      | none => cases fits <;> exact later (by simpa [goto] using leads)
      | some state =>
        cases fits with
        | false => exact later (by simpa [goto] using leads)
        | true =>
          simp only [goto] at leads
          cases leads
          exact ⟨entry, List.mem_cons_self .., named, goto, rfl⟩

theorem operates_load (m : Machine) (s : Store) (model : Value) :
    m.Operates s (.load model) (m.load s model).1 none := by
  unfold load
  cases running : m.running with
  | true => exact .idle (by simp)
  | false =>
    cases held : statesOf s model with
    | error reason => exact .idle (by simp)
    | ok states =>
      simp only [Bool.false_eq_true, if_false]
      split <;> exact running ▸ .loaded running held

theorem operates_run (m : Machine) (s : Store) : m.Operates s (.setRunning true) (m.run s).1 (m.run s).2.2 := by
  unfold run
  split
  · exact .idle (by simp)
  · exact .idle (by simp)
  next model state paused loaded current => exact .resumed loaded current
  next model paused loaded current =>
    dsimp only
    split
    next state initial => exact .started loaded initial
    · exact .idle (by simp)

theorem operates_reset (m : Machine) (s : Store) : m.Operates s .reset (m.reset s).1 none := by
  unfold Machine.reset
  split
  next running => exact .idle fun _ => running
  next paused => exact .reset (by simpa using paused)

theorem operates_fire (m : Machine) (s : Store) (name : Value) :
    m.Operates s (.fire name) (m.fire s name).1 (m.entrance? s (.fire name)) := by
  simp only [entrance?, operate]
  unfold fire
  split
  · exact .idle (by simp)
  · exact .idle (by simp)
  next state running current =>
    split
    · exact .idle (by simp)
    next events held =>
      split
      · exact .idle (by simp)
      next e leads =>
        obtain ⟨entry, among, fits, goto, same⟩ := leadsTo?_some leads
        rw [same]
        exact .fired running current held among fits goto
      · exact .idle (by simp)

theorem operates (m : Machine) (s : Store) (o : Operation) :
    m.Operates s o (m.operate s o).1 (m.entrance? s o) := by
  cases o with
  | load model =>
    have none : m.entrance? s (.load model) = none := by
      simp only [entrance?, operate]
      cases (m.load s model).2.2 <;> rfl
    exact none ▸ m.operates_load s model
  | setRunning on =>
    cases on with
    | true => exact m.operates_run s
    | false => exact .paused
  | reset => exact m.operates_reset s
  | fire name => exact m.operates_fire s name

theorem mem_indexStates {index : Entries} {states : List Value} {key state : Value}
    (member : (key, state) ∈ (indexStates s index states).1) :
    (key, state) ∈ index ∨ state ∈ states ∧ s.isMapping state = true ∧ s.field state "name" = key := by
  induction states generalizing index with
  | nil => exact Or.inl member
  | cons head rest ih =>
    have later {index : Entries} (member : (key, state) ∈ (indexStates s index rest).1) : (key, state) ∈ index ∨
        state ∈ head :: rest ∧ s.isMapping state = true ∧ s.field state "name" = key := by
      apply (ih member).imp_right
      rintro ⟨among, listed⟩
      exact ⟨List.mem_cons_of_mem head among, listed⟩
    unfold indexStates at member
    split at member
    next mapping =>
      dsimp only at member
      split at member
      · exact Or.inl member
      · rcases later member with old | listed
        · unfold Entries.putNew at old
          split at old
          · exact Or.inl old
          · rcases List.mem_append.mp old with old | new
            · exact Or.inl old
            · cases List.mem_singleton.mp new
              exact Or.inr ⟨List.mem_cons_self .., mapping, rfl⟩
        · exact Or.inr listed
    · exact later member

/-- What a machine that is loaded with a model has in its index are states of the model. -/
theorem lists_indexStates {model key state : Value} {states : List Value} (held : statesOf s model = .ok states)
    (member : (key, state) ∈ (indexStates s [] states).1) : Lists s model key state := by
  unfold statesOf at held
  split at held
  · cases held
  · split at held
    · cases held
    · cases held
    next items =>
      cases held
      obtain ⟨among, mapping, named⟩ := (mem_indexStates member).resolve_left (List.not_mem_nil)
      exact ⟨mapping, named, _, items, among⟩

/-- How an operation comes to enter a state by its name. -/
inductive EntersAs (m : Machine) (s : Store) : Operation → String → Prop where
  | initial {model : Value} {name : String} (loaded : m.model = some model)
      (named : s.field model "initial" = .text name) : EntersAs m s (.setRunning true) name
  | goto {current entry event : Value} {events : List Value} {name : String} (inState : m.current = some current)
      (held : eventsOf s current = .ok events) (among : entry ∈ events) (fits : hasName s entry event = .ok true)
      (named : s.field entry "goto" = .text name) : EntersAs m s (.fire event) name

theorem state?_some {v state : Value} (found : m.state? v = some state) :
    ∃ name, v = .text name ∧ m.index.get? (.text name) = some state := by
  unfold state? at found
  split at found
  next name => exact ⟨name, rfl, found⟩
  · cases found

namespace Operates

variable {o : Operation} {n : Machine} {entered : Option Entrance}

theorem sound (operates : m.Operates s o n entered)
    (sound : m.running = true → m.model ≠ none ∧ m.current ≠ none) :
    n.running = true → n.model ≠ none ∧ n.current ≠ none := by
  cases operates with
  | idle _ => exact sound
  | loaded paused _ => simp [paused]
  | resumed loaded current => simp [loaded, current]
  | started loaded _ => simp [enter, loaded]
  | paused => simp
  | reset paused => simp [paused]
  | fired running _ _ _ _ _ => simpa [enter] using fun _ => (sound running).1

/-- A machine is in the state that it entered last, unless it was reset since. -/
theorem current (operates : m.Operates s o n entered) :
    n.current = (entered.map (·.target)).or (if m.clears o then none else m.current) := by
  cases operates with
  | idle kept => cases o <;> simp_all [clears]
  | reset paused => simp [clears, paused]
  | _ => rfl

theorem clears_nothing {e : Entrance} (operates : m.Operates s o n (some e)) : m.clears o = false := by
  cases operates <;> rfl

theorem index (operates : m.Operates s o n entered) {key state : Value} (member : (key, state) ∈ n.index) :
    (key, state) ∈ m.index ∨ ∃ model, o = .load model ∧ Lists s model key state := by
  cases operates with
  | loaded _ held => exact Or.inr ⟨_, rfl, lists_indexStates held member⟩
  | _ => exact Or.inl member

theorem enters {e : Entrance} (operates : m.Operates s o n (some e)) :
    ∃ name, m.EntersAs s o name ∧ m.index.get? (.text name) = some e.target := by
  cases operates with
  | started loaded initial =>
    obtain ⟨name, named, found⟩ := state?_some initial
    exact ⟨name, .initial loaded named, found⟩
  | fired _ inState held among fits goto =>
    obtain ⟨name, named, found⟩ := state?_some goto
    exact ⟨name, .goto inState held among fits named, found⟩

end Operates

end Machine

namespace Milestone

def entrance? : Milestone → Option Entrance
  | .operate s o => s.entrance? o
  | _ => none

def clears : Milestone → Bool
  | .operate s o => s.machine.any fun m => m.clears o
  | _ => false

end Milestone

namespace Chronicle

/-- The milestones since the machine was last reset while it was paused, the latest first. -/
def stay (c : Chronicle) : List Milestone :=
  c.milestones.reverse.takeWhile fun k => !k.clears

theorem stay_occur (c : Chronicle) (o : Occasion) :
    (c.occur o).stay = match c.session.met? o with
      | none => c.stay
      | some k => if k.clears then [] else k :: c.stay := by
  unfold stay occur
  cases c.session.met? o with
  | none => simp
  | some k => cases clears : k.clears <;> simp [clears]

structure Lives (c : Chronicle) (m : Machine) : Prop where
  machine : c.session.machine = some m
  sound : m.running = true → m.model ≠ none ∧ m.current ≠ none
  current : m.current = (c.stay.findSome? Milestone.entrance?).map (·.target)
  index : ∀ key state, (key, state) ∈ m.index →
    ∃ u model, .operate u (.load model) ∈ c.milestones ∧ Machine.Lists u.store model key state
  entered : ∀ k ∈ c.milestones, ∀ e, k.entrance? = some e → ∃ u o name n, k = .operate u o ∧ u.machine = some n ∧
    n.EntersAs u.store o name ∧ n.index.get? (.text name) = some e.target ∧
      ∃ v model, .operate v (.load model) ∈ c.milestones ∧ Machine.Lists v.store model (.text name) e.target

theorem Lives.kept {c : Chronicle} {m : Machine} (lives : c.Lives m) {o : Occasion}
    (machine : (c.session.occur o).machine = some m) (silent : ∀ k, c.session.met? o = some k → k.entrance? = none ∧ k.clears = false) :
    (c.occur o).Lives m := by
  have more {k : Milestone} (old : k ∈ c.milestones) : k ∈ (c.occur o).milestones := List.mem_append_left _ old
  constructor
  case machine => exact machine
  case sound => exact lives.sound
  case current =>
    rw [stay_occur, lives.current]
    cases met : c.session.met? o with
    | none => rfl
    | some k => simp [silent k met]
  case index =>
    intro key state member
    obtain ⟨u, model, loaded, lists⟩ := lives.index key state member
    exact ⟨u, model, more loaded, lists⟩
  case entered =>
    intro k member e enters
    rcases List.mem_append.mp member with old | new
    · obtain ⟨u, o, name, n, same, known, as, found, v, model, loaded, lists⟩ := lives.entered k old e enters
      exact ⟨u, o, name, n, same, known, as, found, v, model, more loaded, lists⟩
    · cases (silent k (Option.mem_toList.mp new)).1.symm.trans enters

theorem Lives.operate {c : Chronicle} {m : Machine} (lives : c.Lives m)
    (orderly : c.session.Orderly c.session.running) {o : Occasion} {u : Session} {operation : Operation}
    (met : c.session.met? o = some (.operate u operation)) : (c.occur o).Lives (m.operate u.store operation).1 := by
  have operates := m.operates u.store operation
  have before : u.machine = some m :=
    (congrArg Outline.machine (Session.meets_occur orderly met).calm.outline).trans lives.machine
  have passed : (c.occur o).milestones = c.milestones ++ [.operate u operation] := by
    simp only [occur, met, Option.toList_some]
  have entrance : Milestone.entrance? (.operate u operation) = m.entrance? u.store operation := by
    simp only [Milestone.entrance?, Session.entrance?, before, Option.bind_some]
  have more {k : Milestone} (old : k ∈ c.milestones) : k ∈ (c.occur o).milestones := passed ▸ List.mem_append_left _ old
  have last : .operate u operation ∈ (c.occur o).milestones := passed ▸ List.mem_append_right _ (List.mem_singleton_self _)
  constructor
  case machine =>
    have machine := Session.machine_occur orderly o
    rw [met] at machine
    dsimp only at machine
    rw [before] at machine
    exact machine
  case sound => exact operates.sound lives.sound
  case current =>
    have clears : Milestone.clears (.operate u operation) = m.clears operation := by
      simp only [Milestone.clears, before, Option.any_some]
    rw [operates.current, stay_occur, met]
    dsimp only
    rw [clears]
    cases entered : m.entrance? u.store operation with
    | some e =>
      rw [entered] at operates
      simp [operates.clears_nothing, entrance, entered]
    | none =>
      cases m.clears operation with
      | true => rfl
      | false => simp [entrance, entered, lives.current]
  case index =>
    intro key state member
    rcases operates.index member with old | ⟨model, rfl, lists⟩
    · obtain ⟨v, model, loaded, lists⟩ := lives.index key state old
      exact ⟨v, model, more loaded, lists⟩
    · exact ⟨u, model, last, lists⟩
  case entered =>
    intro k member e enters
    rw [passed] at member
    rcases List.mem_append.mp member with old | new
    · obtain ⟨u, o, name, n, same, known, as, found, v, model, loaded, lists⟩ := lives.entered k old e enters
      exact ⟨u, o, name, n, same, known, as, found, v, model, more loaded, lists⟩
    · cases List.mem_singleton.mp new
      rw [entrance] at enters
      rw [enters] at operates
      obtain ⟨name, as, found⟩ := operates.enters
      obtain ⟨v, model, loaded, lists⟩ := lives.index _ _ (Entries.mem_get? found)
      exact ⟨u, operation, name, m, rfl, before, as, found, v, model, more loaded, lists⟩

theorem Lives.occur {c : Chronicle} {m : Machine} (lives : c.Lives m) (orderly : c.session.Orderly c.session.running)
    (o : Occasion) : ∃ n, (c.occur o).Lives n := by
  have machine := Session.machine_occur orderly o
  cases met : c.session.met? o with
  | none =>
    rw [met] at machine
    exact ⟨m, lives.kept (machine.trans lives.machine) (by simp [met])⟩
  | some k =>
    rw [met] at machine
    cases k with
    | operate u operation => exact ⟨_, lives.operate orderly met⟩
    | enter u task target =>
      refine ⟨m, lives.kept (machine.trans lives.machine) fun k same => ?_⟩
      cases met.symm.trans same
      exact ⟨rfl, rfl⟩
    | place u task config whole values =>
      refine ⟨m, lives.kept (machine.trans lives.machine) fun k same => ?_⟩
      cases met.symm.trans same
      exact ⟨rfl, rfl⟩

theorem Lives.start {s : Session} {limit : Option Nat} (machine : s.machine = some { limit }) :
    ({ session := s } : Chronicle).Lives { limit } where
  machine := machine
  sound running := nomatch running
  current := rfl
  index _ _ member := nomatch member
  entered _ member := nomatch member

theorem Lives.course {c : Chronicle} {m : Machine} (lives : c.Lives m) (orderly : c.session.Orderly c.session.running)
    (occasions : List Occasion) : ∃ n, (c.course occasions).Lives n :=
  (along orderly (P := fun c => ∃ m, c.Lives m) ⟨m, lives⟩ (fun _ o orderly ⟨_, lives⟩ => lives.occur orderly o) occasions).2

end Chronicle

namespace Session

/-- Whatever is asked of a machine and however its behaviour ends, it has a model and a state while
it runs; it is in no state exactly if it has entered none since it was last reset while paused; and
its state is a mapping that its index held, when it was entered, under the text that it was entered
by and that is its name, unless a model is changed after it was loaded. -/
theorem machine_lives {s : Session} (fresh : s.Fresh) {limit : Option Nat} (machine : s.machine = some { limit })
    (occasions : List Occasion) :
    let c := ({ session := s } : Chronicle).course occasions
    ∃ m, c.session.machine = some m ∧
      (m.running = true → m.model ≠ none ∧ m.current ≠ none) ∧
      (m.current = none ↔ ∀ k ∈ c.stay, k.entrance? = none) ∧
      ((∀ u model, .operate u (.load model) ∈ c.milestones → u.store.Keeps c.session.store model) →
        ∀ state, m.current = some state → c.session.store.isMapping state = true ∧
          ∃ name later u o earlier n, c.session.store.field state "name" = .text name ∧
            c.stay = later ++ .operate u o :: earlier ∧ (∀ k ∈ later, k.entrance? = none) ∧
            u.machine = some n ∧ n.EntersAs u.store o name ∧ n.index.get? (.text name) = some state) := by
  intro c
  obtain ⟨m, lives⟩ := (Chronicle.Lives.start machine).course fresh.orderly occasions
  refine ⟨m, lives.machine, lives.sound, ?_, ?_⟩
  · rw [lives.current, Option.map_eq_none_iff, List.findSome?_eq_none_iff]
  · intro kept state inState
    rw [lives.current] at inState
    obtain ⟨e, found, rfl⟩ := Option.map_eq_some_iff.mp inState
    obtain ⟨later, k, earlier, stay, enters, silent⟩ := List.findSome?_eq_some_iff.mp found
    have member : k ∈ c.stay := stay ▸ List.mem_append_right _ (List.mem_cons_self ..)
    have passed : k ∈ c.milestones := List.mem_reverse.mp ((List.takeWhile_sublist _).mem member)
    obtain ⟨u, o, name, n, rfl, known, as, indexed, v, model, loaded, lists⟩ := lives.entered k passed e enters
    obtain ⟨states, items, among⟩ := lists.among
    have whole := ((kept v model loaded).of_field "states").of_items items among
    refine ⟨whole.isMapping.trans lists.mapping, name, later, u, o, earlier, n, ?_, stay, silent, known, as, indexed⟩
    exact (whole.field "name").trans lists.named

/-- A machine whose behaviour refuses whatever it is asked for. -/
private def refusing : Session where
  store := { cells := #[
    .map [(.text "initial", .text "A"), (.text "states", .tuple [.ref 1, .ref 3])],
    .map [(.text "name", .text "A"), (.text "events", .tuple [.ref 2])],
    .map [(.text "on", .text "go"), (.text "goto", .text "B")],
    .map [(.text "name", .text "B")]] }
  behavior := .canned .refuse .refuse
  machine := some {}

/-- A model is loaded, and the machine runs and goes on to the second state. -/
private def refused : Chronicle :=
  ({ session := refusing } : Chronicle).course
    [.event (.load (.ref 0)), .event (.setRunning true), .event (.fire (.text "go"))]

theorem refusing_lives : refusing.Fresh ∧ refusing.machine = some { limit := some 100 } ∧
    ∃ m, refused.session.machine = some m ∧ m.running = true ∧ m.current = some (.ref 3) ∧
      ∃ name u o, ∃ n : Machine, refused.session.store.field (.ref 3) "name" = .text name ∧
        .operate u o ∈ refused.stay ∧ n.EntersAs u.store o name ∧ n.index.get? (.text name) = some (.ref 3) := by
  have fresh : refusing.Fresh := ⟨rfl, rfl, rfl, rfl, rfl⟩
  have machine : refusing.machine = some { limit := some 100 } := rfl
  obtain ⟨m, machine, -, -, held⟩ := machine_lives fresh machine
    [.event (.load (.ref 0)), .event (.setRunning true), .event (.fire (.text "go"))]
  have running : (refused.session.machine.map (·.running)) = some true := rfl
  have current : (refused.session.machine.map (·.current)) = some (some (.ref 3)) := rfl
  rw [show refused.session.machine = some m from machine] at running current
  have inState : m.current = some (.ref 3) := Option.some.inj current
  refine ⟨fresh, rfl, m, machine, Option.some.inj running, inState, ?_⟩
  have kept : ∀ u model, .operate u (.load model) ∈ refused.milestones → u.store.Keeps refused.session.store model := by
    intro u model member
    have stores : refused.milestones.map (·.session.store) = List.replicate 3 refusing.store := rfl
    have same : u.store = refusing.store := List.eq_of_mem_replicate (stores ▸ List.mem_map_of_mem member)
    exact same ▸ Store.keeps_refl _ model
  obtain ⟨-, name, later, u, o, earlier, n, named, stay, -, -, as, found⟩ := held kept (.ref 3) inState
  refine ⟨name, u, o, n, named, ?_, as, found⟩
  exact (show refused.stay = _ from stay) ▸ List.mem_append_right _ (List.mem_cons_self ..)

end Session

end Interaction
