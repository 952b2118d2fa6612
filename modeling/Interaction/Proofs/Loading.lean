import Interaction.Proofs.Lifecycle

/-! Loading a model. A model is loaded as a whole, with the first state of each name in the index, or
the machine stays as it was. Only a state whose name cannot be a key spoils that: it is met when the
model has been taken in already, and the index holds the states before it. -/

namespace Interaction

namespace Machine

/-- Whether an index holds the first of some states under each name, and nothing else. -/
structure Indexes (s : Store) (states : List Value) (index : Entries) : Prop where
  first : ∀ key, index.get? key = states.find? fun state => s.isMapping state && (s.field state "name").sameKey key
  only : ∀ key state, (key, state) ∈ index → state ∈ states ∧ s.isMapping state = true ∧ s.field state "name" = key
  distinct : index.Distinct

/-- Whether the name of a state can be a key. What is no mapping has no name and is passed over. -/
def Nameable (s : Store) (state : Value) : Prop :=
  s.isMapping state = true → s.container? (s.field state "name") = none

def IsModel (s : Store) (model : Value) (states : List Value) : Prop :=
  s.isMapping model = true ∧ s.items? (s.field model "states") = some states ∧ states ≠ []

variable {s : Store} {states : List Value}

theorem indexStates_nameable (nameable : ∀ state ∈ states, Nameable s state) (index : Entries) (key : Value) :
    (indexStates s index states).2 = none ∧ (indexStates s index states).1.get? key =
      (index.get? key).or (states.find? fun state => s.isMapping state && (s.field state "name").sameKey key) := by
  induction states generalizing index with
  | nil => exact ⟨rfl, Option.or_none.symm⟩
  | cons state rest ih =>
    have later := ih fun other member => nameable other (List.mem_cons_of_mem state member)
    cases mapping : s.isMapping state with
    | false => simpa [indexStates, mapping] using later index
    | true =>
      have free := nameable state (List.mem_cons_self ..) mapping
      obtain ⟨fine, found⟩ := later (index.putNew (s.field state "name") state)
      simp only [indexStates, mapping, free, if_true, List.find?_cons, Bool.true_and]
      refine ⟨fine, found.trans ?_⟩
      rw [Entries.get?_putNew, Option.or_assoc]
      cases (s.field state "name").sameKey key with
      | true => simp only [if_true, Option.some_or]
      | false => simp only [Bool.false_eq_true, if_false, Option.none_or]

theorem indexStates_spoilt {before after : List Value} {state : Value} {kind : String}
    (nameable : ∀ state ∈ before, Nameable s state) (mapping : s.isMapping state = true)
    (held : s.container? (s.field state "name") = some kind) (index : Entries) :
    indexStates s index (before ++ state :: after) = ((indexStates s index before).1, some (.noKey kind)) := by
  induction before generalizing index with
  | nil => simp only [List.nil_append, indexStates, mapping, held, if_true]
  | cons first rest ih =>
    have later := ih fun other member => nameable other (List.mem_cons_of_mem first member)
    rw [List.cons_append]
    cases isState : s.isMapping first with
    | false => simpa only [indexStates, isState, Bool.false_eq_true, if_false] using later index
    | true =>
      have free := nameable first (List.mem_cons_self ..) isState
      simpa only [indexStates, isState, free, if_true] using later (index.putNew (s.field first "name") first)

theorem distinct_indexStates (states : List Value) {index : Entries} (distinct : index.Distinct) :
    (indexStates s index states).1.Distinct := by
  induction states generalizing index with
  | nil => exact distinct
  | cons state rest ih =>
    unfold indexStates
    split
    · dsimp only
      split
      · exact distinct
      · exact ih (distinct.putNew _ _)
    · exact ih distinct

theorem indexes_indexStates (nameable : ∀ state ∈ states, Nameable s state) : Indexes s states (indexStates s [] states).1 where
  first key := by
    rw [(indexStates_nameable nameable [] key).2]
    exact Option.none_or
  only key state member := (mem_indexStates member).resolve_left List.not_mem_nil
  distinct := distinct_indexStates states List.Pairwise.nil

/-- Either all names can be keys, or there is a first one that cannot. -/
theorem nameable_cases (s : Store) (states : List Value) : (∀ state ∈ states, Nameable s state) ∨
    ∃ before state after kind, states = before ++ state :: after ∧ (∀ state ∈ before, Nameable s state) ∧
      s.isMapping state = true ∧ s.container? (s.field state "name") = some kind := by
  induction states with
  | nil => exact Or.inl fun state member => nomatch member
  | cons first rest ih =>
    by_cases nameable : Nameable s first
    · rcases ih with all | ⟨before, state, after, kind, rfl, earlier, mapping, held⟩
      · exact Or.inl (List.forall_mem_cons.mpr ⟨nameable, all⟩)
      · exact Or.inr ⟨first :: before, state, after, kind, rfl, List.forall_mem_cons.mpr ⟨nameable, earlier⟩, mapping, held⟩
    · obtain ⟨mapping, named⟩ := Classical.not_imp.mp nameable
      obtain ⟨kind, held⟩ := Option.ne_none_iff_exists'.mp named
      exact Or.inr ⟨[], first, rest, kind, rfl, fun state member => (nomatch member), mapping, held⟩

theorem statesOf_ok {model : Value} : statesOf s model = .ok states ↔ IsModel s model states := by
  unfold statesOf IsModel
  cases s.isMapping model with
  | false => simp
  | true =>
    simp only [Bool.not_true, Bool.false_eq_true, if_false, true_and]
    split
    next none => simp [none]
    next empty =>
      simp only [reduceCtorEq, false_iff, not_and, not_not]
      intro same
      cases empty.symm.trans same
      rfl
    next items nonempty held =>
      rw [Except.ok.injEq]
      constructor
      · rintro rfl
        exact ⟨held, nonempty⟩
      · rintro ⟨same, -⟩
        exact Option.some.inj (held.symm.trans same)

/-- What loading makes of a machine, by what it answers. -/
inductive Loads (m : Machine) (s : Store) (model : Value) : Machine → Except Fault Bool → Prop where
  | refused (unfit : m.running = true ∨ ∀ states, ¬ IsModel s model states) : Loads m s model m (.ok false)
  | loaded {states : List Value} {index : Entries} (paused : m.running = false) (isModel : IsModel s model states)
      (nameable : ∀ state ∈ states, Nameable s state) (indexes : Indexes s states index) :
      Loads m s model { m with model := some model, index } (.ok true)
  /-- The index holds the states before the one whose name cannot be a key. -/
  | spoilt {before after : List Value} {state : Value} {kind : String} {index : Entries} (paused : m.running = false)
      (isModel : IsModel s model (before ++ state :: after)) (mapping : s.isMapping state = true)
      (held : s.container? (s.field state "name") = some kind) (indexes : Indexes s before index) :
      Loads m s model { m with model := some model, index } (.error (.noKey kind))

theorem loads (m : Machine) (s : Store) (model : Value) : m.Loads s model (m.load s model).1 (m.load s model).2.2 := by
  unfold load
  cases running : m.running with
  | true => exact .refused (Or.inl running)
  | false =>
    simp only [Bool.false_eq_true, if_false]
    cases found : statesOf s model with
    | error reason =>
      refine .refused (Or.inr fun states isModel => ?_)
      cases found.symm.trans (statesOf_ok.mpr isModel)
    | ok states =>
      have isModel := statesOf_ok.mp found
      rcases nameable_cases s states with nameable | ⟨before, state, after, kind, rfl, nameable, mapping, held⟩
      · have fine := (indexStates_nameable nameable [] .null).1
        simp only [fine]
        exact running ▸ .loaded running isModel nameable (indexes_indexStates nameable)
      · simp only [indexStates_spoilt nameable mapping held []]
        exact running ▸ .spoilt running isModel mapping held (indexes_indexStates nameable)

namespace Loads

variable {m n : Machine} {model : Value} {answer : Except Fault Bool}

theorem untouched (loads : m.Loads s model n answer) : n = { m with model := n.model, index := n.index } := by
  cases loads <;> rfl

theorem whole (loads : m.Loads s model n answer)
    (nameable : ∀ states, IsModel s model states → ∀ state ∈ states, Nameable s state) :
    answer = .ok true ∨ answer = .ok false ∧ n = m := by
  cases loads with
  | refused _ => exact Or.inr ⟨rfl, rfl⟩
  | loaded _ _ _ _ => exact Or.inl rfl
  | spoilt _ isModel mapping held _ =>
    have free := nameable _ isModel _ (List.mem_append_right _ (List.mem_cons_self ..)) mapping
    cases free.symm.trans held

end Loads

end Machine

namespace Session

/-- Loading a model is all or nothing, and touches nothing but the model and its index: if it succeeds,
the machine was paused and has the very model, with the first state of each name in the index; and
if it is refused, everything is as before. The one exception is a paused machine that is given a model
with a state whose name cannot be a key: it has the new model then, with only the states before that one. -/
theorem load_whole (s : Session) {m : Machine} (machine : s.machine = some m) (model : Value) :
    let t := (s.load model).1
    ∃ n, t = { s with machine := some n, trace := t.trace } ∧ n = { m with model := n.model, index := n.index } ∧
      m.Loads s.store model n (s.load model).2 ∧
        ((∀ states, Machine.IsModel s.store model states → ∀ state ∈ states, Machine.Nameable s.store state) →
          (s.load model).2 = .ok true ∨ (s.load model).2 = .ok false ∧ n = m) := by
  intro t
  have loads := m.loads s.store model
  have answer : (s.load model).2 = (m.load s.store model).2.2 := by simp only [load, machine]
  have after : t = { s with machine := some (m.load s.store model).1 }.logAll (m.load s.store model).2.1 := by
    simp only [t, load, machine]
  refine ⟨(m.load s.store model).1, ?_, loads.untouched, answer ▸ loads, ?_⟩
  · rw [after, logAll_eq]
  · rw [answer]
    exact loads.whole

private def settledIn : Session :=
  { store := { cells := #[
      .map [(.text "initial", .text "A"), (.text "states", .tuple [.ref 1])],
      .map [(.text "name", .text "A")],
      .map [(.text "initial", .text "C"), (.text "states", .tuple [.ref 3, .ref 4])],
      .map [(.text "name", .text "C")],
      .map [(.text "name", .ref 5)],
      .list []] }
    machine := some { model := some (.ref 0), index := [(.text "A", .ref 1)] } }

theorem reload_whole : settledIn.machine = some { model := some (.ref 0), index := [(.text "A", .ref 1)] } ∧
    ∃ n, (settledIn.load (.ref 0)).1.machine = some n ∧
      Machine.Loads { model := some (.ref 0), index := [(.text "A", .ref 1)] } settledIn.store (.ref 0) n (.ok true) := by
  obtain ⟨n, after, -, loads, -⟩ := settledIn.load_whole rfl (.ref 0)
  exact ⟨rfl, n, congrArg Session.machine after, loads⟩

/-- A list for a name is met when the model before is gone already. -/
theorem listed_name_spoils : ({ settledIn with machine := some {} }.load (.ref 0)).1.machine = settledIn.machine ∧
    (settledIn.load (.ref 2)).2 = .error (.noKey "list") ∧
      ∃ n, (settledIn.load (.ref 2)).1.machine = some n ∧ settledIn.machine.map (·.model) ≠ some n.model ∧
        n.model = some (.ref 2) ∧ n.index = [(.text "C", .ref 3)] := by
  refine ⟨rfl, rfl, _, rfl, ?_, rfl, rfl⟩
  simp [settledIn]

end Session

end Interaction
