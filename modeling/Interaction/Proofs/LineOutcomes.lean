import Interaction.Proofs.Handling

/-! What comes of a transition that a line asks for: how far its behaviour gets, and what is handed over
to the factory. -/

namespace Interaction

/-- A task that has what it needs stands where it is until it takes a step. -/
theorem Session.Stands.remains {s : Session} {o : Occasion} {task : Nat} {frame : Frame} {rest : List Frame} {values : List Value}
    (stands : s.Stands task (frame :: rest) (.values values)) (orderly : s.Orderly s.running) (idle : ¬ s.Steps o task) :
    (s.occur o).Stands task (frame :: rest) (.values values) := by
  rcases o.event_or_exchange with ⟨e, rfl⟩ | other
  · rcases Session.stands_happen_on orderly e stands with ⟨after, still, rfl | ⟨_, _, waits, _⟩⟩ | ⟨_, _, waits, _⟩ | ⟨rfl, own⟩
    · exact still
    · cases waits
    · cases waits
    · obtain ⟨⟨_, frames, given⟩, turn, rfl⟩ := Option.map_eq_some_iff.mp own
      obtain ⟨rfl, _⟩ := stands.of_turn orderly turn
      exact absurd ⟨rfl, frame, rest, given, turn⟩ idle
  · exact (Session.stands_other other).mpr stands

namespace Session.Attends

variable {s : Session} {own : Nat} {text : String} {news : List Milestone}

theorem only (attends : s.Attends own text news) {u v : Session} {first last : Operation} (one : .operate u first ∈ news)
    (other : .operate v last ∈ news) : u = v ∧ first = last := by
  have among {k : Milestone} (member : k ∈ news) (operates : k.isOperation = true) : k ∈ news.filter Milestone.isOperation :=
    List.mem_filter.mpr ⟨member, operates⟩
  have first := among one rfl
  have last := among other rfl
  have once := attends.once
  cases whole : news.filter Milestone.isOperation with
  | nil =>
    rw [whole] at first
    cases first
  | cons k rest =>
    rw [whole] at first last once
    cases rest with
    | cons _ _ => simp at once
    | nil =>
      rw [List.mem_singleton] at first last
      cases first.trans last.symm
      exact ⟨rfl, rfl⟩

end Session.Attends

namespace Chronicle

/-- Where the configuration of the target is asked for: at once if the transition has none of its own, and
otherwise by the task that enters the target. -/
inductive Asks (c : Chronicle) (news : List Milestone) (u : Session) (operation : Operation) (e : Entrance) : Session → Prop where
  | silent (silent : (u.opened operation).store.truthy e.config = false) : Asks c news u operation e (u.opened operation)
  | entered {f : Follower} {w : Session} (given : (u.opened operation).store.truthy e.config = true)
      (left : (u.opened operation).follower? e = some f) (among : f ∈ c.followers)
      (enters : .enter w f.task e.target ∈ news) : Asks c news u operation e w

variable {a c root : Chronicle} {own : Nat} {text : String} {news : List Milestone} {q : Consultation} {u w : Session}
  {operation : Operation} {e : Entrance}

theorem Spell.passed (spell : a.Spell c own text news) {k : Milestone} (member : k ∈ news) : k ∈ c.milestones := by
  rw [spell.since.same]
  exact List.mem_append_right _ member

theorem follower_entered (entered : u.entrance? operation = some e) :
    Milestone.follower? (.operate u operation) = (u.opened operation).follower? e := by
  rw [Milestone.follower?, entered, Option.bind_some]

theorem follower_given {s : Session} {f : Follower} (left : s.follower? e = some f) :
    s.store.truthy e.config = true ∧ f.target = e.target := by
  unfold Session.follower? at left
  split at left
  · cases left
  next other =>
    rw [not_or, Bool.not_eq_false] at other
    split at left <;> cases left
    exact ⟨other.2, rfl⟩

/-- The configuration of a state is asked for by the transition that a line asks for. -/
theorem Spell.asks (spell : a.Spell c own text news) (asked : q ∈ news.filterMap Milestone.consultation?) (entry : q.entry = .state) :
    ∃ u operation e, .operate u operation ∈ news ∧ u.entrance? operation = some e ∧
      c.Asks news u operation e q.session ∧ q.config = q.session.store.field e.target "do" := by
  obtain ⟨k, member, asked⟩ := List.mem_filterMap.mp asked
  cases k with
  | place u task config whole values => cases asked
  | operate u operation =>
    simp only [Milestone.consultation?, Milestone.opening?, Milestone.closing?, Option.or_none] at asked
    obtain ⟨e, entered, rfl⟩ := Option.map_eq_some_iff.mp asked
    cases truthy : (u.opened operation).store.truthy e.config with
    | true => simp [Session.behaviorOf, truthy] at entry
    | false =>
      refine ⟨u, operation, e, member, entered, .silent truthy, ?_⟩
      simp [Session.behaviorOf, truthy]
  | enter w task target =>
    cases asked
    obtain ⟨f, left, same⟩ := spell.since.entered _ member (by simp [Milestone.closing?])
    cases same
    obtain ⟨k, origin, left⟩ := List.mem_filterMap.mp left
    have among : f ∈ c.followers := by
      rw [followers, spell.since.same, List.filterMap_append]
      exact List.mem_append_right _ (List.mem_filterMap.mpr ⟨k, origin, left⟩)
    have accomplished := accomplished_enter (spell.passed member)
    cases k with
    | enter u task target => cases left
    | place u task config whole values => cases left
    | operate u operation =>
      obtain ⟨e, entered, left⟩ := Option.bind_eq_some_iff.mp left
      obtain ⟨given, aimed⟩ := follower_given left
      obtain ⟨_, _, same, _⟩ := (spell.since.commissions.concludes f among).follows.entered _ accomplished
      cases same
      rw [aimed] at member
      exact ⟨u, operation, e, origin, entered, .entered given left among member, by rw [aimed]⟩

theorem Asks.unique (spell : a.Spell c own text news) {v : Session} (one : c.Asks news u operation e v)
    (other : c.Asks news u operation e w) : v = w := by
  cases one with
  | silent silent =>
    cases other with
    | silent _ => rfl
    | entered given _ _ _ => cases silent.symm.trans given
  | @entered f v given left among enters =>
    cases other with
    | silent silent => cases silent.symm.trans given
    | @entered g w _ also _ again =>
      cases left.symm.trans also
      have first := accomplished_enter (spell.passed enters)
      have last := accomplished_enter (spell.passed again)
      rcases (spell.since.commissions.concludes f among).follows.errand.once with none | ⟨k, one, _⟩
      · rw [none] at first
        cases first
      · rw [one, List.mem_singleton] at first last
        cases first.trans last.symm
        rfl

theorem Spell.unique (spell : a.Spell c own text news) {r : Consultation} {first last : Nat}
    (one : q ∈ news.filterMap Milestone.consultation?) (accepts : q.Accepts first)
    (other : r ∈ news.filterMap Milestone.consultation?) (also : r.Accepts last) : first = last ∧ q.config = r.config := by
  obtain ⟨u, operation, e, asked, entered, asks, config⟩ := spell.asks one accepts.entry
  obtain ⟨v, others, e', again, reentered, asked', config'⟩ := spell.asks other also.entry
  obtain ⟨rfl, rfl⟩ := spell.attends.only asked again
  cases entered.symm.trans reentered
  have same := Asks.unique spell asks asked'
  have accepted := also.accepted
  rw [config', ← same, ← config, accepts.accepted] at accepted
  exact ⟨Except.ok.inj accepted, by rw [config, config', same]⟩

theorem Spell.apart (spell : a.Spell c own text news) (idle : a.Idle) {first last : Nat} {x y : Value}
    (one : c.session.Intends first (.situation x)) (other : c.session.Intends last (.situation y)) : first = last ∧ x = y := by
  obtain ⟨q, asked, accepts, rfl⟩ := spell.since.recent idle.commissions idle.rested spell.orderly one
  obtain ⟨r, again, also, rfl⟩ := spell.since.recent idle.commissions idle.rested spell.orderly other
  exact spell.unique asked accepts again also

theorem Spell.handovers (spell : a.Spell c own text news) : c.handovers = a.handovers ++ news.filterMap Milestone.handover? := by
  rw [Chronicle.handovers, spell.since.same, List.filterMap_append]
  rfl

theorem Spell.errand (spell : a.Spell c own text news) (asked : q ∈ c.consultations) {id : Nat} (accepts : q.Accepts id)
    (given : q.config.isNull = false) : c.Errand id (.situation q.config) :=
  spell.since.commissions.errands q asked id accepts given

theorem Spell.asked (spell : a.Spell c own text news) (asked : q ∈ news.filterMap Milestone.consultation?) : q ∈ c.consultations := by
  rw [consultations, spell.since.same, List.filterMap_append]
  exact List.mem_append_right _ asked

theorem Hands.mapping (hands : c.Hands) {h : Handover} (member : h ∈ c.handovers) : ∃ place, h.config = .ref place := by
  obtain ⟨earlier, later, same⟩ := List.append_of_mem member
  exact (hands.decided earlier h later same).1

theorem Spell.single (spell : a.Spell c own text news) : (news.filterMap Milestone.handover?).length ≤ 1 := by
  cases made : news.filterMap Milestone.handover? with
  | nil => exact Nat.zero_le 1
  | cons h rest =>
    have among : h ∈ news.filterMap Milestone.handover? := made ▸ List.mem_cons_self ..
    obtain ⟨q, asked, accepts, config⟩ := spell.since.handed h among
    have all : c.handovers = a.handovers ++ (h :: rest) := by rw [spell.handovers, made]
    obtain ⟨place, mapping⟩ := spell.hands.mapping (h := h) (all ▸ List.mem_append_right _ (List.mem_cons_self ..))
    have errand := spell.errand (spell.asked asked) accepts (by rw [config, mapping]; rfl)
    have same : (h :: rest).filter (fun g => g.task = h.task) = h :: rest := by
      refine List.filter_eq_self.mpr fun g member => ?_
      obtain ⟨r, again, also, _⟩ := spell.since.handed g (made ▸ member)
      simpa using (spell.unique again also asked accepts).1
    have split : c.handovers.filter (fun g => g.task = h.task) =
        a.handovers.filter (fun g => g.task = h.task) ++ (h :: rest) := by
      rw [all, List.filter_append, same]
    rcases errand.handovers with ⟨_, none⟩ | ⟨g, _, one, _⟩
    · rw [split] at none
      simp at none
    · have count := congrArg List.length (split.symm.trans one)
      simp only [List.length_append, List.length_cons, List.length_nil] at count ⊢
      omega

/-- Whether the parameters of a situation have come to be there, for its task to hand them over next. -/
def Supplies (root : Chronicle) (occasions : List Occasion) (task : Nat) : Prop :=
  ∃ before, before <+: occasions ∧ ∃ config whole values,
    (root.course before).session.turn = some { task, frames := [.place config whole], values }

/-- What comes of the configuration of a state that the coordinator is asked for in a session. -/
inductive Materializes (root : Chronicle) (occasions : List Occasion) (w : Session) (config : Value) : List Handover → Prop where
  | nothing (null : config.isNull = true) : Materializes root occasions w config []
  | rejected {fault : Fault} (given : config.isNull = false) (checked : w.coordinator.checkState w.store config = .error fault) :
      Materializes root occasions w config []
  | unresolved {id : Nat} {fault : Fault} (given : config.isNull = false) (accepted : (w.coordinateState config).2 = .ok id)
      (failed : (root.course occasions).session.schedule.outcome? id = some (.error fault))
      (unsupplied : ¬ root.Supplies occasions id) : Materializes root occasions w config []
  | handed {id : Nat} {h : Handover} (given : config.isNull = false) (accepted : (w.coordinateState config).2 = .ok id)
      (supplied : root.Supplies occasions id) (own : h.task = id) (same : h.config = config)
      (succeeds : h.refusal? = none → (root.course occasions).session.Succeeded id)
      (fails : ∀ fault, h.refusal? = some fault → (root.course occasions).session.schedule.outcome? id = some (.error fault)) :
      Materializes root occasions w config [h]

/-- What comes of a transition, by what it finds when it asks for its behaviour. -/
inductive Fate (root : Chronicle) (occasions : List Occasion) (v : Session) (e : Entrance) : List Handover → Prop where
  | silent {made : List Handover} (silent : v.store.truthy e.config = false)
      (materializes : root.Materializes occasions v (v.store.field e.target "do") made) : Fate root occasions v e made
  | refused {fault : Fault} (given : v.store.truthy e.config = true) (raised : (v.executeTransition e.config).2 = .error fault) :
      Fate root occasions v e []
  | failed {id : Nat} {fault : Fault} (given : v.store.truthy e.config = true)
      (answered : (v.executeTransition e.config).2 = .ok (some id))
      (failed : (root.course occasions).session.schedule.outcome? id = some (.error fault)) : Fate root occasions v e []
  | entered {id task : Nat} {w : Session} {made : List Handover} (given : v.store.truthy e.config = true)
      (answered : (v.executeTransition e.config).2 = .ok (some id)) (succeeded : w.Succeeded id)
      (enters : .enter w task e.target ∈ (root.course occasions).milestones)
      (materializes : root.Materializes occasions w (w.store.field e.target "do") made) : Fate root occasions v e made

variable {occasions : List Occasion} {id : Nat}

theorem passed_course (root : Chronicle) (occasions : List Occasion) : ∃ passed,
    (root.course occasions).milestones = root.milestones ++ passed ∧ ∀ k ∈ passed, ∃ before o, before ++ [o] <+: occasions ∧
      (root.course before).session.met? o = some k := by
  induction occasions generalizing root with
  | nil => exact ⟨[], (List.append_nil _).symm, fun _ member => nomatch member⟩
  | cons o rest ih =>
    obtain ⟨passed, milestones, each⟩ := ih (root.occur o)
    refine ⟨(root.session.met? o).toList ++ passed, milestones.trans (List.append_assoc ..), fun k member => ?_⟩
    rcases List.mem_append.mp member with first | later
    · exact ⟨[], o, List.prefix_cons_inj o |>.mpr (List.nil_prefix), Option.mem_toList.mp first⟩
    · obtain ⟨before, next, start, met⟩ := each k later
      exact ⟨o :: before, next, List.prefix_cons_inj o |>.mpr start, met⟩

/-- A task whose parameters are there has handed over the situation once it has ended. -/
theorem handed_supplied {config : Value} {whole : Bool} {values : List Value} (orderly : c.session.Orderly c.session.running)
    (turn : c.session.turn = some { task := id, frames := [.place config whole], values })
    (ended : (c.course occasions).session.schedule.outcome? id ≠ none) : ∃ h ∈ (c.course occasions).handovers, h.task = id := by
  let Near (d : Chronicle) : Prop := d.session.Stands id [.place config whole] (.values values) ∨ ∃ h ∈ d.handovers, h.task = id
  have next (d : Chronicle) (o : Occasion) (orderly : d.session.Orderly d.session.running) (near : Near d) : Near (d.occur o) := by
    rcases near with stands | ⟨h, member, own⟩
    · by_cases steps : d.session.Steps o id
      · obtain ⟨rfl, frame, rest, others, turn⟩ := steps
        obtain ⟨same, given⟩ := stands.of_turn orderly turn
        cases same
        refine Or.inr ⟨⟨d.session, id, config, whole, others⟩, ?_, rfl⟩
        rw [handovers_occur, Session.met?_step turn]
        exact List.mem_append_right _ (List.mem_singleton_self _)
      · exact Or.inl (stands.remains orderly steps)
    · refine Or.inr ⟨h, ?_, own⟩
      rw [handovers_occur]
      exact List.mem_append_left _ member
  obtain ⟨later, near⟩ := along orderly (P := Near) (Or.inl (.turn turn)) next occasions
  rcases near with stands | handed
  · exact absurd (stands.alive later).1.2 ended
  · exact handed

theorem Spell.turn (spell : a.Spell c own text news) {config : Value} {whole : Bool} {rest : List Frame} {values : List Value}
    (turn : c.session.turn = some { task := id, frames := .place config whole :: rest, values }) : rest = [] := by
  have intends : c.session.Intends id (.situation config) := ⟨_, _, .turn turn, _, List.mem_cons_self .., rfl⟩
  obtain ⟨place, rfl⟩ := spell.hands.mapped id config intends
  obtain ⟨q, asked, accepts, same⟩ := spell.since.commissions.situations id _ intends
  have errand := spell.errand asked accepts (by rw [same]; rfl)
  exact (errand.hands turn).2.1

theorem Idle.supplied (idle : a.Idle) (text : String) (serving : ∀ o ∈ occasions, o.isServing = true) :
    ∃ news, a.Spell ((a.occur (.event (.command text))).course occasions) a.session.schedule.promises.size text news ∧
      ∀ h ∈ news.filterMap Milestone.handover?, (a.occur (.event (.command text))).Supplies occasions h.task := by
  obtain ⟨news, spell⟩ := (idle.given text).course idle serving
  rw [List.nil_append] at spell
  refine ⟨news, spell, fun h handed => ?_⟩
  obtain ⟨passed, milestones, each⟩ := passed_course (a.occur (.event (.command text))) occasions
  have begun : (a.occur (.event (.command text))).milestones = a.milestones := List.append_nil _
  rw [begun] at milestones
  cases List.append_cancel_left (milestones.symm.trans spell.since.same)
  obtain ⟨k, member, handed⟩ := List.mem_filterMap.mp handed
  obtain ⟨before, o, start, met⟩ := each k member
  cases k with
  | operate u operation => cases handed
  | enter u task target => cases handed
  | place u task config whole values =>
    cases handed
    obtain ⟨rfl, frame, rest, given, turn, x, final⟩ := Session.met?_task met rfl
    rw [Session.met?_step turn] at met
    have earlier : before <+: occasions := (List.prefix_append before _).trans start
    have served : ∀ o ∈ before, o.isServing = true := fun o member => serving o (earlier.subset member)
    obtain ⟨others, then_⟩ := (idle.given text).course idle served
    cases final with
    | enter target => cases met
    | place other _ =>
      cases met
      exact ⟨before, earlier, _, _, _, by rw [turn, then_.turn turn]⟩

theorem coordinateState_refused {s : Session} {config : Value} {fault : Fault} (given : config.isNull = false)
    (refused : (s.coordinateState config).2 = .error fault) : s.coordinator.checkState s.store config = .error fault := by
  simp only [Session.coordinateState, given, Bool.false_eq_true, if_false] at refused
  cases checked : s.coordinator.checkState s.store config <;> rw [checked] at refused <;> cases refused
  rfl

theorem Spell.caused (spell : a.Spell c own text news) {h : Handover} (handed : h ∈ news.filterMap Milestone.handover?) :
    ∃ u operation e w, .operate u operation ∈ news ∧ u.entrance? operation = some e ∧ c.Asks news u operation e w ∧
      h.config = w.store.field e.target "do" ∧ Consultation.Accepts ⟨w, .state, w.store.field e.target "do"⟩ h.task := by
  obtain ⟨⟨w, entry, config⟩, asked, accepts, same⟩ := spell.since.handed h handed
  obtain ⟨u, operation, e, member, entered, asks, read⟩ := spell.asks asked accepts.entry
  have accepted := accepts.accepted
  dsimp only at read same accepted
  rw [read] at same accepted
  exact ⟨u, operation, e, w, member, entered, asks, same.symm, rfl, accepts.coordinated, accepted⟩

theorem Spell.handed (spell : a.Spell c own text news) {h : Handover} (member : h ∈ news.filterMap Milestone.handover?) :
    h ∈ c.handovers := by
  rw [spell.handovers]
  exact List.mem_append_right _ member

/-- A task that has come about since is not among those that had handed over something before. -/
theorem Spell.unhanded (spell : a.Spell c own text news) (idle : a.Idle) (recent : a.session.schedule.promises.size ≤ id)
    (none : news.filterMap Milestone.handover? = []) : ∀ h ∈ c.handovers, h.task ≠ id := by
  rintro h member rfl
  rw [spell.handovers, none, List.append_nil] at member
  obtain ⟨k, passed, same⟩ := List.mem_filterMap.mp member
  have older : h.task < a.session.schedule.promises.size := by
    apply idle.hands.dated k passed h.task
    cases k <;> cases same
    rfl
  omega

theorem Errand.unaccomplished {config : Value} (errand : c.Errand id (.situation config)) (none : ∀ h ∈ c.handovers, h.task ≠ id) :
    c.accomplished id = [] := by
  rcases errand.handovers with ⟨undone, _⟩ | ⟨h, _, one, _⟩
  · exact undone
  · have member : h ∈ c.handovers.filter fun h => h.task = id := one ▸ List.mem_singleton_self h
    obtain ⟨member, own⟩ := List.mem_filter.mp member
    exact absurd (of_decide_eq_true own) (none h member)

theorem Errand.refusal {h : Handover} {config : Value} (errand : c.Errand h.task (.situation config)) (member : h ∈ c.handovers)
    {fault : Fault} (failed : c.session.schedule.outcome? h.task = some (.error fault)) : h.refusal? = some fault := by
  have among : h ∈ c.handovers.filter fun g => g.task = h.task := List.mem_filter.mpr ⟨member, by simp⟩
  rcases errand.handovers with ⟨_, none⟩ | ⟨g, _, one, done⟩
  · rw [none] at among
    cases among
  · rw [one, List.mem_singleton] at among
    subst among
    exact errand.failed fault config failed rfl _ (done ▸ List.mem_singleton_self _)

/-- A configuration that was accepted has come to its end when the line has. -/
theorem Spell.ends (spell : a.Spell c own text news) (idle : a.Idle) (orderly : root.session.Orderly root.session.running)
    (whole : c = root.course occasions) (ended : c.session.schedule.outcome? own ≠ none)
    (supplied : ∀ h ∈ news.filterMap Milestone.handover?, root.Supplies occasions h.task) (asked : q ∈ c.consultations)
    (accepts : q.Accepts id) (given : q.config.isNull = false) (recent : a.session.schedule.promises.size ≤ id)
    (only : ∀ h ∈ news.filterMap Milestone.handover?, h.task = id ∧ h.config = q.config) :
    root.Materializes occasions q.session q.config (news.filterMap Milestone.handover?) := by
  have errand := spell.errand asked accepts given
  have settled := spell.since.commissions.settled (spell.attends.ended ended) ⟨q, asked, accepts, rfl⟩
  obtain ⟨outcome, known⟩ := Option.ne_none_iff_exists'.mp settled
  cases made : news.filterMap Milestone.handover? with
  | nil =>
    have none := spell.unhanded idle recent made
    cases outcome with
    | ok values => exact absurd (errand.unaccomplished none) (errand.ended values known)
    | error fault =>
      refine .unresolved given accepts.accepted (whole ▸ known) ?_
      rintro ⟨before, ⟨rest, rfl⟩, config, all, values, turn⟩
      rw [course_append] at whole
      obtain ⟨h, member, own⟩ := handed_supplied (orderly_course orderly before) turn (whole ▸ settled)
      exact none h (whole ▸ member) own
  | cons h rest =>
    have member : h ∈ news.filterMap Milestone.handover? := made ▸ List.mem_cons_self ..
    have single := spell.single
    rw [made] at single
    obtain ⟨rfl, same⟩ := only h member
    cases rest with
    | cons _ _ => simp at single
    | nil =>
      refine .handed given accepts.accepted (supplied h member) rfl same (fun taken => ?_) fun fault refused => ?_
      · rw [← whole]
        cases outcome with
        | ok values => exact ⟨values, known⟩
        | error fault => cases taken.symm.trans (errand.refusal (spell.handed member) known)
      · rw [← whole]
        exact spell.since.commissions.refused h (spell.handed member) fault refused

theorem Spell.materializes (spell : a.Spell c own text news) (idle : a.Idle) (orderly : root.session.Orderly root.session.running)
    (whole : c = root.course occasions) (ended : c.session.schedule.outcome? own ≠ none)
    (supplied : ∀ h ∈ news.filterMap Milestone.handover?, root.Supplies occasions h.task) (asked : q ∈ c.consultations)
    (entry : q.entry = .state) (coordinated : q.session.behavior = .coordinated)
    (recent : a.session.schedule.promises.size ≤ q.session.schedule.promises.size)
    (only : ∀ h ∈ news.filterMap Milestone.handover?, q.Accepts h.task ∧ h.config = q.config) :
    root.Materializes occasions q.session q.config (news.filterMap Milestone.handover?) := by
  have unmade (impossible : ∀ h ∈ news.filterMap Milestone.handover?, False) : news.filterMap Milestone.handover? = [] :=
    List.eq_nil_iff_forall_not_mem.mpr impossible
  cases given : q.config.isNull with
  | true =>
    rw [unmade fun h member => ?_]
    · exact .nothing given
    · obtain ⟨place, mapping⟩ := spell.hands.mapping (spell.handed member)
      rw [← (only h member).2, mapping] at given
      cases given
  | false =>
    cases accepted : (q.session.coordinateState q.config).2 with
    | error fault =>
      rw [unmade fun h member => ?_]
      · exact .rejected given (coordinateState_refused given accepted)
      · cases accepted.symm.trans (only h member).1.accepted
    | ok id =>
      have own := (Session.coordinateState_spawns given accepted).1
      refine spell.ends idle orderly whole ended supplied asked ⟨entry, coordinated, accepted⟩ given (own ▸ recent) fun h member => ?_
      obtain ⟨accepts, same⟩ := only h member
      exact ⟨Except.ok.inj (accepts.accepted.symm.trans accepted), same⟩

theorem executeTransition_answered {v : Session} {config : Value} {answer : Option Nat} (coordinated : v.behavior = .coordinated)
    (answered : (v.executeTransition config).2 = .ok answer) : ∃ id, answer = some id := by
  rw [Session.executeTransition, coordinated] at answered
  dsimp only at answered
  cases replied : (v.coordinateTransition config).2 with
  | error fault =>
    rw [replied] at answered
    cases answered
  | ok id =>
    rw [replied] at answered
    cases answered
    exact ⟨id, rfl⟩

/-- What is handed over is what the transition that a line has asked for has led to. -/
theorem Spell.caused_by (spell : a.Spell c own text news) (member : .operate u operation ∈ news)
    (entered : u.entrance? operation = some e) {h : Handover} (handed : h ∈ news.filterMap Milestone.handover?) :
    ∃ w, c.Asks news u operation e w ∧ h.config = w.store.field e.target "do" ∧
      Consultation.Accepts ⟨w, .state, w.store.field e.target "do"⟩ h.task := by
  obtain ⟨v, others, e', w, again, also, asks, same, accepts⟩ := spell.caused handed
  obtain ⟨rfl, rfl⟩ := spell.attends.only member again
  cases entered.symm.trans also
  exact ⟨w, asks, same, accepts⟩

theorem Spell.unmade (spell : a.Spell c own text news) (member : .operate u operation ∈ news)
    (entered : u.entrance? operation = some e) (none : ∀ w, ¬ c.Asks news u operation e w) :
    news.filterMap Milestone.handover? = [] := by
  refine List.eq_nil_iff_forall_not_mem.mpr fun h handed => ?_
  obtain ⟨w, asks, _⟩ := spell.caused_by member entered handed
  exact none w asks

theorem Spell.materializes_state (spell : a.Spell c own text news) (idle : a.Idle)
    (orderly : root.session.Orderly root.session.running) (whole : c = root.course occasions)
    (ended : c.session.schedule.outcome? own ≠ none)
    (supplied : ∀ h ∈ news.filterMap Milestone.handover?, root.Supplies occasions h.task)
    (member : .operate u operation ∈ news) (entered : u.entrance? operation = some e) (asks : c.Asks news u operation e w)
    (asked : ⟨w, .state, w.store.field e.target "do"⟩ ∈ c.consultations) (coordinated : w.behavior = .coordinated)
    (recent : a.session.schedule.promises.size ≤ w.schedule.promises.size) :
    root.Materializes occasions w (w.store.field e.target "do") (news.filterMap Milestone.handover?) := by
  refine spell.materializes idle orderly whole ended supplied asked rfl coordinated recent fun h handed => ?_
  obtain ⟨v, again, same, accepts⟩ := spell.caused_by member entered handed
  cases Asks.unique spell asks again
  exact ⟨accepts, same⟩

/-- What comes of a transition that leaves a task behind: its behaviour fails, or the task enters the state. -/
theorem Spell.fate_followed (spell : a.Spell c own text news) (idle : a.Idle)
    (orderly : root.session.Orderly root.session.running) (whole : c = root.course occasions)
    (ended : c.session.schedule.outcome? own ≠ none)
    (supplied : ∀ h ∈ news.filterMap Milestone.handover?, root.Supplies occasions h.task)
    (member : .operate u operation ∈ news) (entered : u.entrance? operation = some e)
    (coordinated : (u.opened operation).behavior = .coordinated) (given : (u.opened operation).store.truthy e.config = true)
    {f : Follower} (left : (u.opened operation).follower? e = some f) (target : f.target = e.target)
    (answered : ((u.opened operation).executeTransition e.config).2 = .ok f.answer) :
    root.Fate occasions (u.opened operation) e (news.filterMap Milestone.handover?) := by
  have commissions := spell.since.commissions
  have leaves : Milestone.follower? (.operate u operation) = some f := (follower_entered entered).trans left
  have among : f ∈ c.followers := List.mem_filterMap.mpr ⟨_, spell.passed member, leaves⟩
  have concludes := commissions.concludes f among
  obtain ⟨id, promised⟩ := executeTransition_answered coordinated answered
  have settled := (commissions.followed f among).elim (spell.attends.ended ended f.task) fun settled => settled
  obtain ⟨outcome, known⟩ := Option.ne_none_iff_exists'.mp settled
  rw [promised] at answered
  cases concludes.ended outcome known with
  | unanswered none _ => cases promised.symm.trans none
  | @failed other fault same failed _ =>
    cases promised.symm.trans same
    rw [spell.unmade member entered fun w asks => ?_]
    · exact .failed given answered (whole ▸ failed)
    · cases asks with
      | silent silent => cases given.symm.trans silent
      | @entered g _ _ also _ enters =>
        cases left.symm.trans also
        obtain ⟨_, _, _, same, _, _, succeeded⟩ := concludes.follows.entered _ (accomplished_enter (spell.passed enters))
        cases promised.symm.trans same
        cases failed.symm.trans succeeded
  | @entered w enters _ =>
    obtain ⟨_, _, same, awaited, succeeded, _⟩ := concludes.follows.entered _ (accomplished_enter enters)
    cases same
    cases promised.symm.trans awaited
    rw [target] at enters
    have new := (Milestone.follower_done leaves).1
    -- The task is younger than the line, so it has entered the state since.
    have recent : .enter w f.task e.target ∈ news := by
      rw [spell.since.same] at enters
      refine (List.mem_append.mp enters).resolve_left fun old => ?_
      have older := idle.hands.dated _ old f.task rfl
      have later := spell.since.later _ member
      dsimp only [Milestone.session] at new later
      omega
    refine .entered given answered succeeded (whole ▸ enters) ?_
    refine spell.materializes_state idle orderly whole ended supplied member entered (.entered given left among recent) ?_
      (commissions.met _ enters) (spell.since.later _ recent)
    exact List.mem_filterMap.mpr ⟨_, enters, rfl⟩

/-- What comes of the transition that a line has asked for, once the line has been handled. -/
theorem Spell.fate (spell : a.Spell c own text news) (idle : a.Idle) (orderly : root.session.Orderly root.session.running)
    (whole : c = root.course occasions) (ended : c.session.schedule.outcome? own ≠ none)
    (supplied : ∀ h ∈ news.filterMap Milestone.handover?, root.Supplies occasions h.task)
    (member : .operate u operation ∈ news) (entered : u.entrance? operation = some e) :
    root.Fate occasions (u.opened operation) e (news.filterMap Milestone.handover?) := by
  have coordinated : (u.opened operation).behavior = .coordinated :=
    (congrArg Outline.behavior (u.outline_opened operation)).trans (spell.since.commissions.met _ (spell.passed member))
  cases truthy : (u.opened operation).store.truthy e.config with
  | false =>
    refine .silent truthy ?_
    refine spell.materializes_state idle orderly whole ended supplied member entered (.silent truthy) ?_ coordinated ?_
    · refine spell.asked (List.mem_filterMap.mpr ⟨_, member, ?_⟩)
      simp [Milestone.consultation?, Milestone.opening?, Milestone.closing?, entered, Session.behaviorOf, truthy]
    · rw [u.schedule_opened]
      exact spell.since.later _ member
  | true =>
    have attached : (u.opened operation).behavior ≠ .absent := by
      simp [coordinated]
    rcases Session.follower?_cases attached truthy with ⟨⟨fault, raised⟩, none⟩ | ⟨f, left, target, answered⟩
    · rw [spell.unmade member entered fun w asks => ?_]
      · exact .refused truthy raised
      · cases asks with
        | silent silent => cases truthy.symm.trans silent
        | entered _ left _ _ => cases none.symm.trans left
    · exact spell.fate_followed idle orderly whole ended supplied member entered coordinated truthy left target answered

end Chronicle

end Interaction
