import Interaction.Proofs.Consulting

/-! Situations that are handed over. The configuration of a state that is accepted is handed over
once, when its parameters are there; whether as something new or once more depends on which
configuration was handed over last as something new, and was accepted. -/

namespace Interaction

theorem Value.sameKey_ref {v : Value} {place : Nat} : v.sameKey (.ref place) = true ↔ v = .ref place := by
  cases v with
  | ref other => simp [Value.sameKey]
  | scalar x => simp [Value.sameKey]
  | tuple items => simp [Value.sameKey]

/-- A situation that is handed over: in which session, by which task, and with what parameters. -/
structure Handover where
  session : Session
  task : Nat
  config : Value
  whole : Bool
  values : List Value

namespace Handover

def again (h : Handover) : Bool :=
  h.session.isCurrent h.config

def refusal? (h : Handover) : Option Fault :=
  h.session.refusal? h.config h.whole h.values

/-- Whether the situation is asked for as something new, and accepted. -/
def makes (h : Handover) : Bool :=
  h.refusal?.isNone && !h.again

def shown (h : Handover) : List Occurrence :=
  h.session.recorded h.config h.whole h.values

/-- The configuration that was made last. -/
def lastMade (hs : List Handover) : Option Value :=
  hs.foldl (fun last h => if h.makes then some h.config else last) none

theorem lastMade_concat (hs : List Handover) (h : Handover) :
    lastMade (hs ++ [h]) = if h.makes then some h.config else lastMade hs :=
  List.foldl_append

theorem refusal?_absent {h : Handover} (absent : h.session.coordinator.factory = .absent) : h.refusal? = none := by
  obtain ⟨record, same⟩ := h.session.place_eq h.config h.whole h.values
  have called : ((h.session.log record).callFactory (h.session.isCurrent h.config)
      (h.session.store.field h.config "situation") (h.session.handed h.whole h.values)) =
        (h.session.log record, .ok ()) := by
    have still : (h.session.log record).coordinator.factory = .absent := absent
    rw [Session.callFactory, still]
  rw [refusal?, Session.refusal?, same, called]

/-- Whether a list of handovers tells what is asked for once more from what is made anew. -/
def Decided (hs : List Handover) : Prop :=
  ∀ earlier h later, hs = earlier ++ h :: later →
    (∃ place, h.config = .ref place) ∧ (h.again = true ↔ lastMade earlier = some h.config)

theorem Decided.concat {hs : List Handover} {h : Handover} (decided : Decided hs) (mapped : ∃ place, h.config = .ref place)
    (again : h.again = true ↔ lastMade hs = some h.config) : Decided (hs ++ [h]) := by
  intro earlier h' later same
  rcases List.eq_nil_or_concat later with rfl | ⟨front, last, rfl⟩
  · obtain ⟨rfl, one⟩ := List.append_inj' same rfl
    cases one
    exact ⟨mapped, again⟩
  · rw [List.concat_eq_append, ← List.cons_append, ← List.append_assoc] at same
    exact decided earlier h' front (List.append_inj' same rfl).1

theorem Decided.repeated {earlier block later : List Handover} {config : Value}
    (decided : Decided (earlier ++ block ++ later)) (made : lastMade earlier = some config)
    (same : ∀ h ∈ block, h.config = config) : ∀ h ∈ block, h.again = true := by
  induction block generalizing earlier with
  | nil =>
    intro h member
    cases member
  | cons h rest ih =>
    have own := same h (List.mem_cons_self ..)
    have again : h.again = true := by
      rw [List.append_assoc] at decided
      exact (decided earlier h (rest ++ later) rfl).2.mpr (made.trans (by rw [own]))
    have still : lastMade (earlier ++ [h]) = some config := by
      rw [lastMade_concat]
      simp [makes, again, made]
    rw [List.append_cons] at decided
    intro h' member
    rcases List.mem_cons.mp member with rfl | among
    · exact again
    · exact ih decided still (fun h among => same h (List.mem_cons_of_mem _ among)) h' among

/-- A configuration that was not made last is made once, and then asked for once more. -/
theorem Decided.block {earlier block later : List Handover} {config : Value}
    (decided : Decided (earlier ++ block ++ later)) (same : ∀ h ∈ block, h.config = config)
    (accepted : ∀ h ∈ block, h.again = false → h.refusal? = none) (other : lastMade earlier ≠ some config)
    (some_ : block ≠ []) : block.map again = false :: List.replicate (block.length - 1) true := by
  cases block with
  | nil => exact absurd rfl some_
  | cons h rest =>
    have own := same h (List.mem_cons_self ..)
    have first : h.again = false := by
      rw [List.append_assoc] at decided
      rw [← Bool.not_eq_true]
      intro again
      exact other (((decided earlier h (rest ++ later) rfl).2.mp again).trans (by rw [own]))
    have made : lastMade (earlier ++ [h]) = some config := by
      have makes : h.makes = true := by simp [makes, first, accepted h (List.mem_cons_self ..) first]
      rw [lastMade_concat, if_pos makes, own]
    rw [List.append_cons] at decided
    have repeated := decided.repeated made fun h among => same h (List.mem_cons_of_mem _ among)
    have all := List.map_congr_left (f := again) (g := fun _ => true) repeated
    rw [List.map_cons, first, all, List.map_const', List.length_cons, Nat.add_sub_cancel]

end Handover

def Occurrence.isSituation : Occurrence → Bool
  | .created _ _ | .refreshed _ _ => true
  | _ => false

theorem Occurrence.isAppeal_of_isSituation (o : Occurrence) (situation : o.isSituation = true) : o.isAppeal = true := by
  cases o with
  | created _ _ => rfl
  | refreshed _ _ => rfl
  | _ => cases situation

namespace Milestone

def handover? : Milestone → Option Handover
  | .place session task config whole values => some { session, task, config, whole, values }
  | _ => none

theorem shown_situation (k : Milestone) :
    k.shown.filter Occurrence.isSituation = k.handover?.toList.flatMap Handover.shown := by
  have consulted (s : Session) (entry : Entry) (config : Value) : (s.shows entry config).filter Occurrence.isSituation = [] := by
    unfold Session.shows
    split <;> rfl
  cases k with
  | operate s o =>
    simp only [shown, Session.firstShown]
    split
    · rfl
    · exact consulted ..
  | enter s task target => exact consulted ..
  | place s task config whole values =>
    simp only [shown, handover?, Option.toList_some, List.flatMap_singleton, Handover.shown, Session.recorded]
    split
    · cases s.isCurrent config <;> rfl
    · rfl

/-- The configuration that counts as made last changes with what is made only. -/
theorem created_done (k : Milestone) : k.done.coordinator.created = match k.handover? with
    | some h => if h.makes then some h.config else k.session.coordinator.created
    | none => k.session.coordinator.created := by
  cases k with
  | operate s o => exact congrArg Outline.created (s.outline_operate o)
  | enter s task target => exact congrArg Outline.created (s.consult_cases .state (s.store.field target "do")).1
  | place s task config whole values => exact congrArg Outline.created (s.outline_place config whole values)

end Milestone

namespace Session

variable {s : Session} {config : Value} {id : Nat}

theorem coordinateState_spawns (given : config.isNull = false) (accepted : (s.coordinateState config).2 = .ok id) :
    id = s.schedule.promises.size ∧ (s.coordinateState config).1 = (s.spawn [.materialize config]).1 := by
  unfold coordinateState at accepted ⊢
  rw [given] at accepted ⊢
  simp only [Bool.false_eq_true, if_false] at accepted ⊢
  split at accepted
  · cases accepted
  · cases accepted
    exact ⟨rfl, rfl⟩

theorem executeState_spawns (coordinated : s.behavior = .coordinated) (given : config.isNull = false)
    (accepted : (s.coordinateState config).2 = .ok id) :
    s.executeState config = ((s.spawn [.materialize config]).1, .ok (some id)) := by
  have started := (coordinateState_spawns given accepted).2
  rw [executeState, coordinated]
  dsimp only
  rw [started, accepted]
  rfl

/-- What the machine asks for is spawned at the milestone, and may be kept track of then. -/
theorem extends_consulted {k : Milestone} {q : Consultation} (asked : k.consultation? = some q) (entry : q.entry = .state)
    (coordinated : q.session.behavior = .coordinated) (given : q.config.isNull = false)
    (accepted : (q.session.coordinateState q.config).2 = .ok id) : q.session.schedule = k.session.schedule ∧
      (q.session.spawn [.materialize q.config]).1.schedule.Extends k.done.schedule := by
  cases k with
  | place u task target whole values => cases asked
  | enter u task target =>
    cases asked
    refine ⟨rfl, ?_⟩
    rw [Milestone.done, executeState_spawns coordinated given accepted]
    exact .refl _
  | operate u o =>
    simp only [Milestone.consultation?, Milestone.opening?, Milestone.closing?, Option.or_none] at asked
    obtain ⟨e, entered, rfl⟩ := Option.map_eq_some_iff.mp asked
    obtain ⟨size, started⟩ := coordinateState_spawns given accepted
    have inside := Schedule.origin?_inside ((u.opened o).schedule.origin?_spawn [.materialize ((u.opened o).behaviorOf e).2])
    refine ⟨u.schedule_opened o, ?_⟩
    rw [Milestone.done, operate, entered, performAny, perform_accepted ⟨entry, coordinated, accepted⟩, started]
    rw [← size] at inside
    exact .watch _ inside _

theorem Executes.begun {o : Occasion} (executes : s.Executes o config id) (orderly : s.Orderly s.running)
    (given : config.isNull = false) : s.schedule.promises.size ≤ id ∧ (s.occur o).Begun id ∧
      (s.occur o).schedule.origin? id = some (.task [.materialize config]) := by
  have spawned (t : Session) (config : Value) : (t.spawn [.materialize config]).1.Begun t.schedule.promises.size :=
    begun_spawn t (by simp [Frame.isWork])
  cases executes with
  | direct accepted =>
    obtain ⟨rfl, same⟩ := coordinateState_spawns given accepted
    have happened : s.occur (.event (.coordinate .state config)) = (s.spawn [.materialize config]).1 := same
    rw [happened]
    exact ⟨Nat.le_refl _, spawned s config, Schedule.origin?_spawn ..⟩
  | @machine e k q id passed asked entry coordinated accepted =>
    obtain ⟨rfl, -⟩ := coordinateState_spawns given accepted
    obtain ⟨same, extended⟩ := extends_consulted asked entry coordinated given accepted
    have origin := q.session.schedule.origin?_spawn [.materialize q.config]
    have held := (extended.origin (Schedule.origin?_inside origin)).trans origin
    obtain ⟨new, held⟩ := held_happen orderly passed (same ▸ Nat.le_refl _) held
    exact ⟨new, begun_happen orderly passed ((spawned q.session q.config).later extended), held⟩

end Session

namespace Chronicle

def handovers (c : Chronicle) : List Handover :=
  c.milestones.filterMap Milestone.handover?

variable {c : Chronicle} {o : Occasion} {task : Nat} {config : Value}

theorem handovers_occur (c : Chronicle) (o : Occasion) :
    (c.occur o).handovers = c.handovers ++ ((c.session.met? o).bind Milestone.handover?).toList :=
  c.filterMap_occur o Milestone.handover?

theorem handovers_accomplished (c : Chronicle) (task : Nat) :
    (c.handovers.filter fun h => h.task = task) = (c.accomplished task).filterMap Milestone.handover? := by
  rw [handovers, accomplished, List.filter_filterMap, List.filterMap_filter]
  congr 1
  funext k
  cases k with
  | place s own config whole values => by_cases same : own = task <;> simp [Milestone.handover?, Milestone.task?, same]
  | _ => simp [Milestone.handover?]

theorem Errand.handovers (errand : c.Errand task (.situation config)) :
    (c.accomplished task = [] ∧ (c.handovers.filter fun h => h.task = task) = []) ∨
      ∃ h, h.config = config ∧ (c.handovers.filter fun h => h.task = task) = [h] ∧
        c.accomplished task = [.place h.session h.task h.config h.whole h.values] := by
  rw [handovers_accomplished]
  rcases errand.once with none | ⟨k, one, purpose⟩
  · exact Or.inl ⟨none, by rw [none]; rfl⟩
  · cases k with
    | operate u o => cases purpose
    | enter u own target => cases purpose
    | place u own target whole values =>
      cases purpose
      exact Or.inr ⟨{ session := u, task := own, config, whole, values }, rfl, by rw [one]; rfl, one⟩

/-- A task whose parameters are there hands over the situation with its next step. -/
theorem Errand.hands (errand : c.Errand task (.situation config))
    {target : Value} {whole : Bool} {rest : List Frame} {values : List Value}
    (turn : c.session.turn = some { task, frames := .place target whole :: rest, values }) :
    target = config ∧ rest = [] ∧ (c.handovers.filter fun h => h.task = task) = [] ∧
      (c.occur (.event .step)).handovers = c.handovers ++ [{ session := c.session, task, config, whole, values }] := by
  rcases errand.stands _ _ (.turn turn) with ⟨none, front, last, same, plain, serves⟩ | ⟨_, empty, _⟩
  · cases front with
    | nil =>
      cases same
      cases serves
      refine ⟨rfl, rfl, by rw [handovers_accomplished, none]; rfl, ?_⟩
      rw [handovers_occur, Session.met?_step turn]
      rfl
    | cons first front =>
      cases same
      cases plain (.place target whole) (List.mem_cons_self ..)
  · cases empty

structure Hands (c : Chronicle) : Prop where
  dated : c.Dated
  created : c.session.coordinator.created = Handover.lastMade c.handovers
  mapped : ∀ task config, c.session.Intends task (.situation config) → ∃ place, config = .ref place
  decided : Handover.Decided c.handovers

theorem Hands.occur (hands : c.Hands) (orderly : c.session.Orderly c.session.running) (o : Occasion) :
    (c.occur o).Hands := by
  have created : (c.session.occur o).coordinator.created = ((c.session.met? o).elim c.session Milestone.done).coordinator.created :=
    (Session.outline_occur orderly o).2.1
  constructor
  case dated => exact hands.dated.occur orderly o
  case created =>
    rw [handovers_occur]
    refine created.trans ?_
    cases met : c.session.met? o with
    | none =>
      rw [Option.bind_none, Option.toList_none, List.append_nil]
      exact hands.created
    | some k =>
      have before : k.session.coordinator.created = c.session.coordinator.created :=
        congrArg Outline.created (Session.meets_occur orderly met).calm.outline
      rw [Option.elim_some, k.created_done, before, Option.bind_some]
      cases k.handover? with
      | none =>
        rw [Option.toList_none, List.append_nil]
        exact hands.created
      | some h => rw [Option.toList_some, Handover.lastMade_concat, hands.created]
  case mapped =>
    intro task config intends
    rcases Session.intends_occur orderly o intends with old | ⟨place, same, _⟩ | ⟨_, _, _, _, _, other⟩
    · exact hands.mapped task config old
    · cases same
      exact ⟨place, rfl⟩
    · cases other
  case decided =>
    rw [handovers_occur]
    cases handed : (c.session.met? o).bind Milestone.handover? with
    | none =>
      rw [Option.toList_none, List.append_nil]
      exact hands.decided
    | some h =>
      obtain ⟨k, met, own⟩ := Option.bind_eq_some_iff.mp handed
      cases k with
      | operate u o => cases own
      | enter u task target => cases own
      | place u task config whole values =>
        cases own
        obtain ⟨x, serving, intends⟩ := Session.met?_serving met rfl
        cases serving.purpose
        -- The step decides by what the session has made last, which is what the list tells.
        have here : u = c.session := serving.session
        obtain ⟨place, rfl⟩ := hands.mapped task config intends
        refine hands.decided.concat ⟨place, rfl⟩ ?_
        rw [← hands.created, Handover.again, Session.isCurrent, here]
        cases c.session.coordinator.created with
        | none => simp
        | some v => simp [Value.sameKey_ref]

theorem Hands.start {s : Session} (fresh : s.Fresh) (unmade : s.coordinator.created = none) :
    ({ session := s } : Chronicle).Hands where
  dated _ member := nomatch member
  created := unmade
  mapped _ _ intends := absurd intends fresh.intends
  decided _ _ _ same := absurd same (by simp [handovers])

theorem Hands.course (hands : c.Hands) (orderly : c.session.Orderly c.session.running) (occasions : List Occasion) :
    (c.course occasions).Hands :=
  (along orderly (P := Hands) hands (fun _ o orderly hands => hands.occur orderly o) occasions).2

end Chronicle

namespace Session

/-- However executions of states overlap and end, the factory is asked for situations as the tasks come to
have their parameters: once more if the configuration is the very one that was made last, and for
something new otherwise; what is made last changes when something new is accepted, and never else.
An execution that is accepted hands over its situation once at most, with the step after its
parameters are there; it ends well only after that. -/
theorem situations_handed {s : Session} (fresh : s.Fresh) (unmade : s.coordinator.created = none)
    (occasions : List Occasion) :
    let c := ({ session := s } : Chronicle).course occasions
    (c.session.trace.filter Occurrence.isSituation).reverse =
        (s.trace.filter Occurrence.isSituation).reverse ++ c.handovers.flatMap Handover.shown ∧
      c.session.coordinator.created = Handover.lastMade c.handovers ∧
      (∀ earlier h later, c.handovers = earlier ++ h :: later → (∃ place, h.config = .ref place) ∧
        (h.again = true ↔ Handover.lastMade earlier = some h.config) ∧
          (h.session.coordinator.factory = .absent → h.refusal? = none)) ∧
      (∀ earlier block later config, c.handovers = earlier ++ block ++ later → block ≠ [] →
        (∀ h ∈ block, h.config = config) → (∀ h ∈ block, h.again = false → h.refusal? = none) →
          Handover.lastMade earlier ≠ some config →
            block.map Handover.again = false :: List.replicate (block.length - 1) true) ∧
      ∀ o config id, c.session.Executes o config id → config.isNull = false → ∀ later,
        let d := (c.occur o).course later
        let own := d.handovers.filter fun h => h.task = id
        (own = [] ∨ ∃ h, own = [h] ∧ h.config = config) ∧
          (∀ values, d.session.schedule.outcome? id = some (.ok values) → own.length = 1) ∧
          (∀ fault, d.session.schedule.outcome? id = some (.error fault) → ∀ h ∈ own, h.refusal? = some fault) ∧
          ∀ target whole rest values,
            d.session.turn = some { task := id, frames := .place target whole :: rest, values } →
              own = [] ∧ (d.occur (.event .step)).handovers = d.handovers ++ [⟨d.session, id, config, whole, values⟩] := by
  intro c
  have orderly := Chronicle.orderly_course (c := { session := s }) fresh.orderly occasions
  have hands := (Chronicle.Hands.start fresh unmade).course fresh.orderly occasions
  refine ⟨?_, hands.created, ?_, ?_, ?_⟩
  · have told := Chronicle.trace_course fresh.orderly Occurrence.isAppeal_of_isSituation occasions
    simp only [Milestone.shown_situation, ← List.flatMap_assoc, ← List.filterMap_eq_flatMap_toList] at told
    exact told
  · intro earlier h later same
    obtain ⟨mapped, again⟩ := hands.decided earlier h later same
    exact ⟨mapped, again, Handover.refusal?_absent⟩
  · intro earlier block later config same some_ own accepted other
    have decided : Handover.Decided c.handovers := hands.decided
    rw [same] at decided
    exact decided.block own accepted other some_
  · intro o config id executes given later
    obtain ⟨new, begun, held⟩ := executes.begun orderly given
    have bound : Bound (.situation config) [.materialize config] := bound_last rfl
    have start : (c.occur o).Errand id (.situation config) :=
      .start hands.dated orderly new (begun.ready _ held).1 held bound
    have errand := start.course (orderly.occur o) later
    dsimp only
    refine ⟨?_, ?_, ?_, ?_⟩
    · rcases errand.handovers with ⟨_, none⟩ | ⟨h, own, one, _⟩
      · exact Or.inl none
      · exact Or.inr ⟨h, one, own⟩
    · intro values settled
      rcases errand.handovers with ⟨none, _⟩ | ⟨h, _, one, _⟩
      · exact absurd none (errand.ended values settled)
      · rw [one]
        rfl
    · intro fault settled h member
      rcases errand.handovers with ⟨_, none⟩ | ⟨h', _, one, done⟩
      · rw [none] at member
        cases member
      · rw [one, List.mem_singleton] at member
        subst member
        exact errand.failed fault config settled rfl _ (done ▸ List.mem_singleton_self _)
    · intro target whole rest values turn
      obtain ⟨_, _, none, handed⟩ := errand.hands turn
      exact ⟨none, handed⟩

/-- A situation whose parameters come from a service that answers later. -/
private def sharing : Session where
  store := { cells := #[
    .map [(.text "situation", .text "S"), (.text "parameters", .ref 1)],
    .map [(.text "name", .text "slow")]] }
  coordinator :=
    { services := #[{ nature := { kind := "Service" }, provision := .listed, execution := .wrapped,
                      methods := [{ name := .text "slow", label := "slow", script := { action := .defer } }] }]
      registry := [("", 0)]
      factory := .recording [] none }

private def execution : Occasion :=
  .event (.coordinate .state (.ref 0))

/-- A second execution before the first one ends. It is answered first. -/
private def overlapping : List Occasion :=
  [execution] ++ List.replicate 10 (.event .step) ++
    [.event (.answer 1 (.ok [.int 1])), .event (.answer 0 (.ok [.int 2]))] ++ List.replicate 10 (.event .step)

private def shared : Chronicle :=
  ({ session := sharing } : Chronicle).course (execution :: overlapping)

theorem sharing_handed : sharing.Fresh ∧ sharing.coordinator.created = none ∧ sharing.Executes execution (.ref 0) 0 ∧
    shared.handovers.map (·.task) = [1, 0] ∧ shared.handovers.map Handover.again = [false, true] ∧
      (shared.handovers.filter fun h => h.task = 0).length = 1 := by
  have fresh : sharing.Fresh := ⟨rfl, rfl, rfl, rfl, rfl⟩
  have executes : sharing.Executes execution (.ref 0) 0 := .direct rfl
  have tasks : shared.handovers.map (·.task) = [1, 0] := rfl
  refine ⟨fresh, rfl, executes, tasks, ?_, ?_⟩
  · obtain ⟨-, -, -, block, -⟩ := situations_handed fresh rfl (execution :: overlapping)
    have configs : shared.handovers.map (·.config) = List.replicate 2 (.ref 0) := rfl
    have refusals : shared.handovers.map Handover.refusal? = List.replicate 2 none := rfl
    have same : ∀ h ∈ shared.handovers, h.config = .ref 0 := fun h member =>
      List.eq_of_mem_replicate (configs ▸ List.mem_map_of_mem member)
    have accepted : ∀ h ∈ shared.handovers, h.again = false → h.refusal? = none := fun h member _ =>
      List.eq_of_mem_replicate (refusals ▸ List.mem_map_of_mem member)
    have some_ : shared.handovers ≠ [] := fun empty => nomatch (congrArg (List.map (·.task)) empty).symm.trans tasks
    have whole : shared.handovers = [] ++ shared.handovers ++ [] := (List.append_nil _).symm
    have count : shared.handovers.length = 2 := rfl
    have unmade : Handover.lastMade [] ≠ some (.ref 0) := nofun
    have decided := block [] shared.handovers [] (.ref 0) whole some_ same accepted unmade
    rwa [count] at decided
  · obtain ⟨-, -, -, -, each⟩ := situations_handed fresh rfl []
    have ended : shared.session.schedule.outcome? 0 = some (.ok []) := rfl
    have later : shared = (Chronicle.occur { session := sharing } execution).course overlapping := List.foldl_cons ..
    rw [later] at ended ⊢
    exact (each execution (.ref 0) 0 executes rfl overlapping).2.1 [] ended

end Session

end Interaction
