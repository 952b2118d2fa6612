import Interaction.Proofs.Input
import Interaction.Proofs.Materializing
import Interaction.Proofs.TransitionOutcomes

/-! Situations that are commissioned. As long as only the machine asks the coordinator for behaviour, a
task that is to hand over a situation is that of a configuration which was accepted when the machine
asked for it. It is tracked, or a task that is tracked waits for it. So nothing is left to be handed over
once all that is tracked has ended. -/

namespace Interaction

/-- Whether an occasion leaves it to the machine to ask for behaviour, and to the coordinator to answer. -/
def Occasion.isIndirect : Occasion → Bool
  | .event (.coordinate _ _) | .answering _ _ => false
  | _ => true

namespace Milestone

theorem opening_tracked {k : Milestone} {q : Consultation} {id : Nat} (opens : k.opening? = some q) (accepts : q.Accepts id) :
    id ∈ k.done.tracked := by
  cases k with
  | enter u task target => cases opens
  | place u task config whole values => cases opens
  | operate u o =>
    obtain ⟨e, entered, rfl⟩ := Option.map_eq_some_iff.mp opens
    rw [done, Session.operate, entered, Session.performAny, Session.perform_accepted accepts]
    exact Session.mem_tracked ..

end Milestone

namespace Session

variable {s : Session} {o : Occasion}

theorem behavior_occur (orderly : s.Orderly s.running) (indirect : o.isIndirect = true) :
    (s.occur o).behavior = s.behavior := by
  cases o with
  | answering state transition => cases indirect
  | furnish factory => rfl
  | event e =>
    have same : (s.happen e).behavior = ((s.milestone? e).elim s Milestone.done).behavior :=
      congrArg Outline.behavior (outline_happen orderly e)
    apply same.trans
    cases passed : s.milestone? e with
    | none => rfl
    | some k =>
      rw [Option.elim_some, behavior_done]
      exact congrArg Outline.behavior (meets_happen orderly passed).calm.outline

/-- A situation that is refused ends its task at once. -/
theorem refused_occur (orderly : s.Orderly s.running) {k : Milestone} {h : Handover} {fault : Fault} (met : s.met? o = some k)
    (handed : k.handover? = some h) (refused : h.refusal? = some fault) :
    (s.occur o).schedule.outcome? h.task = some (.error fault) := by
  cases k with
  | operate u operation => cases handed
  | enter u task target => cases handed
  | place u task config whole values =>
    cases handed
    obtain ⟨rfl, frame, rest, _, turn, x, final⟩ := met?_task met rfl
    rw [met?_step turn] at met
    cases final with
    | enter target => cases met
    | place _ _ =>
      cases met
      have ordered := orderly.grows (.takeStep s (.place config whole) values orderly.tracked)
      rw [running, turn] at ordered
      have unsettled := (ordered.schedule.alive task (List.mem_cons_self ..)).1
      rw [occur, happen_step turn]
      rcases @placed s values config whole with ⟨_, none⟩ | ⟨given, moved, same⟩
      · cases none.symm.trans refused
      · cases same.symm.trans refused
        rw [takeStep, moved]
        exact Schedule.outcome?_settle_self unsettled _

end Session

namespace Chronicle

/-- Whether a task is there for a configuration that was accepted when the machine asked for it. -/
def Commissioned (c : Chronicle) (task : Nat) (config : Value) : Prop :=
  ∃ q ∈ c.consultations, q.Accepts task ∧ q.config = config

structure Commissions (c : Chronicle) : Prop where
  coordinated : c.session.behavior = .coordinated
  met : ∀ k ∈ c.milestones, k.session.behavior = .coordinated
  consults : c.Consults
  concludes : ∀ f ∈ c.followers, c.Concludes f
  followed : ∀ f ∈ c.followers, f.task ∈ c.session.tracked ∨ c.session.schedule.outcome? f.task ≠ none
  opened : ∀ k ∈ c.milestones, ∀ q id, k.opening? = some q → q.Accepts id →
    id ∈ c.session.tracked ∨ c.session.schedule.outcome? id ≠ none
  errands : ∀ q ∈ c.consultations, ∀ id, q.Accepts id → q.config.isNull = false → c.Errand id (.situation q.config)
  situations : ∀ task config, c.session.Intends task (.situation config) → c.Commissioned task config
  handed : ∀ h ∈ c.handovers, c.Commissioned h.task h.config
  refused : ∀ h ∈ c.handovers, ∀ fault, h.refusal? = some fault → c.session.schedule.outcome? h.task = some (.error fault)

variable {c : Chronicle} {o : Occasion} {task : Nat} {config : Value}

theorem consultations_occur (c : Chronicle) (o : Occasion) :
    (c.occur o).consultations = c.consultations ++ ((c.session.met? o).bind Milestone.consultation?).toList :=
  c.filterMap_occur o Milestone.consultation?

/-- What is new in a list that grows with the milestones comes from the one that is met. -/
theorem new_occur {β : Type} {g : Milestone → Option β} {b : β} (member : b ∈ (c.occur o).milestones.filterMap g) :
    b ∈ c.milestones.filterMap g ∨ ∃ k, c.session.met? o = some k ∧ g k = some b := by
  rw [filterMap_occur] at member
  refine (List.mem_append.mp member).imp_right fun new => ?_
  exact Option.bind_eq_some_iff.mp (Option.mem_toList.mp new)

theorem Commissioned.occur (commissioned : c.Commissioned task config) (o : Occasion) : (c.occur o).Commissioned task config := by
  obtain ⟨q, member, accepts, same⟩ := commissioned
  refine ⟨q, ?_, accepts, same⟩
  rw [consultations_occur]
  exact List.mem_append_left _ member

/-- A configuration that is accepted has a task from then on that is there for its situation. -/
theorem errand_executed {id : Nat} {config : Value} (dated : c.Dated) (orderly : c.session.Orderly c.session.running)
    (executes : c.session.Executes o config id) (given : config.isNull = false) : (c.occur o).Errand id (.situation config) := by
  obtain ⟨new, begun, held⟩ := executes.begun orderly given
  exact .start dated orderly new (begun.ready _ held).1 held (bound_last rfl)

theorem commissioned_executed {id : Nat} {config : Value} (indirect : o.isIndirect = true)
    (executes : c.session.Executes o config id) : (c.occur o).Commissioned id config := by
  cases executes with
  | direct _ => cases indirect
  | @machine e k q _ passed asked entry coordinated accepted =>
    have met : c.session.met? (.event e) = some k := passed
    refine ⟨q, ?_, ⟨entry, coordinated, accepted⟩, rfl⟩
    rw [consultations_occur, met, Option.bind_some, asked]
    exact List.mem_append_right _ (List.mem_singleton_self q)

theorem Commissions.occur (commissions : c.Commissions) (orderly : c.session.Orderly c.session.running)
    (indirect : o.isIndirect = true) : (c.occur o).Commissions := by
  have consults := commissions.consults
  have minded {id : Nat} (kept : id ∈ c.session.tracked ∨ c.session.schedule.outcome? id ≠ none) :
      id ∈ (c.occur o).session.tracked ∨ (c.occur o).session.schedule.outcome? id ≠ none :=
    Session.tracked_occur orderly o kept
  have intended {task : Nat} {config : Value} (intends : c.session.Intends task (.situation config)) :
      (c.occur o).Commissioned task config := (commissions.situations task config intends).occur o
  constructor
  case coordinated => exact (Session.behavior_occur orderly indirect).trans commissions.coordinated
  case met =>
    intro k member
    rcases List.mem_append.mp member with old | new
    · exact commissions.met k old
    · have meets := Session.meets_occur orderly (Option.mem_toList.mp new)
      exact (congrArg Outline.behavior meets.calm.outline).trans commissions.coordinated
  case consults => exact consults.occur orderly o
  case concludes =>
    intro f member
    rcases new_occur member with old | ⟨k, met, left⟩
    · exact (commissions.concludes f old).occur orderly o
    · exact .start consults.dated orderly met left
  case followed =>
    intro f member
    rcases new_occur member with old | ⟨k, met, left⟩
    · exact minded (commissions.followed f old)
    · exact Or.inl (Follows.start consults.dated orderly met left).2.2.1
  case opened =>
    intro k member q id opens accepts
    rcases List.mem_append.mp member with old | new
    · exact minded (commissions.opened k old q id opens accepts)
    · have met := Option.mem_toList.mp new
      exact Or.inl (Session.tracked_met orderly met (Milestone.opening_tracked opens accepts))
  case errands =>
    intro q member id accepts given
    rcases new_occur member with old | ⟨k, met, asked⟩
    · exact (commissions.errands q old id accepts given).occur orderly o
    · cases o with
      | answering state transition => cases met
      | furnish factory => cases met
      | event e =>
        have executes := Session.Executes.machine met asked accepts.entry accepts.coordinated accepts.accepted
        exact errand_executed consults.dated orderly executes given
  case situations =>
    intro task config intends
    rcases Session.intends_occur orderly o intends with before | ⟨place, same, executes⟩ | ⟨_, _, _, _, _, other⟩
    · exact intended before
    · cases same
      exact commissioned_executed indirect executes
    · cases other
  case handed =>
    intro h member
    rcases new_occur member with old | ⟨k, met, handed⟩
    · exact (commissions.handed h old).occur o
    · cases k with
      | operate u operation => cases handed
      | enter u task target => cases handed
      | place u task config whole values =>
        cases handed
        obtain ⟨x, serving, intends⟩ := Session.met?_serving met rfl
        cases serving.purpose
        exact intended intends
  case refused =>
    intro h member fault refused
    rcases new_occur member with old | ⟨k, met, handed⟩
    · exact Session.outcome_kept orderly o (commissions.refused h old fault refused)
    · exact Session.refused_occur orderly met handed refused

theorem Commissions.start {s : Session} (fresh : s.Fresh) (coordinated : s.behavior = .coordinated) :
    ({ session := s } : Chronicle).Commissions where
  coordinated := coordinated
  met _ member := nomatch member
  consults := .start fresh (by rw [coordinated]; nofun)
  concludes _ member := nomatch member
  followed _ member := nomatch member
  opened _ member := nomatch member
  errands _ member := nomatch member
  situations _ _ intends := absurd intends fresh.intends
  handed _ member := nomatch member
  refused _ member := nomatch member

theorem accomplished_enter {w : Session} {target : Value} (enters : .enter w task target ∈ c.milestones) :
    Milestone.enter w task target ∈ c.accomplished task :=
  List.mem_filter.mpr ⟨enters, by simp [Milestone.task?]⟩

/-- What a task enters a state for has ended once that task has. -/
theorem Commissions.closed (commissions : c.Commissions) {f : Follower} (member : f ∈ c.followers) {outcome : Outcome}
    (settled : c.session.schedule.outcome? f.task = some outcome) {w : Session} {target : Value}
    (enters : .enter w f.task target ∈ c.milestones) : c.session.ending? (w.entered target) = some outcome := by
  have concludes := commissions.concludes f member
  have own := accomplished_enter enters
  obtain ⟨w', id, same, answered, _, values, succeeded⟩ := concludes.follows.entered _ own
  cases same
  cases concludes.ended outcome settled with
  | unanswered none _ => cases none.symm.trans answered
  | failed other failed _ =>
    cases other.symm.trans answered
    cases failed.symm.trans succeeded
  | @entered v done ends =>
    have also := accomplished_enter done
    rcases concludes.follows.errand.once with none | ⟨k, one, _⟩
    · rw [none] at own
      cases own
    · rw [one, List.mem_singleton] at own also
      cases own.trans also.symm
      exact ends

theorem Commissions.settled (commissions : c.Commissions) (rested : c.session.Rested) (commissioned : c.Commissioned task config) :
    c.session.schedule.outcome? task ≠ none := by
  have ended {id : Nat} (kept : id ∈ c.session.tracked ∨ c.session.schedule.outcome? id ≠ none) :
      c.session.schedule.outcome? id ≠ none :=
    kept.elim (rested id) fun settled => settled
  obtain ⟨q, member, accepts, rfl⟩ := commissioned
  obtain ⟨k, asks, asked⟩ := List.mem_filterMap.mp member
  cases k with
  | place u task config whole values => cases asked
  | operate u operation =>
    simp only [Milestone.consultation?, Milestone.closing?, Option.or_none] at asked
    exact ended (commissions.opened _ asks q task asked accepts)
  | enter w own target =>
    cases asked
    obtain ⟨f, left, same⟩ := commissions.consults.entered _ asks (by simp [Milestone.closing?])
    cases same
    obtain ⟨outcome, settled⟩ := Option.ne_none_iff_exists'.mp (ended (commissions.followed f left))
    have answered : w.entered target = .ok (some task) := by
      rw [Session.entered, Session.executeState, accepts.coordinated]
      dsimp only
      rw [accepts.accepted]
      rfl
    have ends := commissions.closed left settled asks
    rw [answered] at ends
    intro open_
    cases ends.symm.trans open_

/-- Nothing is left to be entered or handed over when all that is tracked has ended. -/
theorem Commissions.still (commissions : c.Commissions) (orderly : c.session.Orderly c.session.running)
    (rested : c.session.Rested) (task : Nat) (x : Purpose) : ¬ c.session.Intends task x := by
  intro intends
  have ended : c.session.schedule.outcome? task ≠ none := by
    cases x with
    | enter target =>
      obtain ⟨f, member, rfl⟩ := commissions.consults.intended task target intends
      exact (commissions.followed f member).elim (rested f.task) fun settled => settled
    | situation config => exact commissions.settled rested (commissions.situations task config intends)
  obtain ⟨frames, supply, stands, _⟩ := intends
  exact ended (stands.alive orderly).1.2

end Chronicle

end Interaction
