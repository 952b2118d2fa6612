import Interaction.Proofs.QuietMachine
import Interaction.Proofs.Sequencing

/-! Secluded work. A session whose methods start no other work stays such a session, and as long as
its tasks only do what calls consist of, no behaviour of a transition comes to be watched. -/

namespace Interaction

namespace Session

variable {s t : Session} {values : List Value}

theorem scene_resume (s : Session) (task : Nat) (frames : List Frame) (outcome : Outcome) :
    (s.resume task frames outcome).scene = s.scene := by
  cases outcome <;> rfl

theorem scene_move (s : Session) (task : Nat) (rest : List Frame) (move : Move) : (s.move task rest move).scene = s.scene := by
  cases move with
  | await promise frames =>
    simp only [Session.move]
    split
    · exact scene_resume ..
    · rfl
  | _ => rfl

theorem secluded_scene (look : s.scene = t.scene) (secluded : t.Secluded) : s.Secluded :=
  under_of_scene look ▸ secluded

theorem machine_done (k : Milestone) (alone : k.session.machine = none) : k.done.machine = none := by
  cases k with
  | operate s o =>
    have machine : (s.operate o).machine = s.machine.map fun m => (m.operate s.store o).1 :=
      congrArg Outline.machine (s.outline_operate o)
    exact machine.trans (congrArg (Option.map _) alone)
  | enter s task target => exact (congrArg Outline.machine (s.consult_cases .state _).1).trans alone
  | place s task config whole values => exact (congrArg Outline.machine (s.outline_place config whole values)).trans alone

theorem Secluded.passes {passed : Option Milestone} (secluded : s.Secluded) (passes : s.Passes t passed)
    (services : t.coordinator.services = s.coordinator.services) : t.Secluded := by
  have kept : (s.machine = none → t.machine = none) ∧ t.behavior = s.behavior := by
    cases passed with
    | none => exact ⟨(congrArg Outline.machine (Calm.outline passes)).trans, congrArg Outline.behavior (Calm.outline passes)⟩
    | some k =>
      obtain ⟨meets, calm⟩ := passes
      refine ⟨fun alone => ?_, ?_⟩
      · have before := (congrArg Outline.machine meets.calm.outline).trans alone
        exact (congrArg Outline.machine calm.outline).trans (machine_done k before)
      · have before := congrArg Outline.behavior meets.calm.outline
        exact (congrArg Outline.behavior calm.outline).trans (k.grows_done.extends.behavior.trans before)
  rcases secluded with alone | absent | quiet
  · exact Or.inl (kept.1 alone)
  · exact Or.inr (Or.inl (kept.2.trans absent))
  · exact Or.inr (Or.inr (quiet_congr services quiet))

theorem secluded_happen (orderly : s.Orderly s.running) (secluded : s.Secluded) : (s.happen .step).Secluded := by
  have services := @services_occur s (.event .step) orderly rfl
  rw [occur] at services
  rcases continues orderly .step with @⟨task, frame, rest, values, _, turn, passes⟩ | passes | ⟨⟨⟩, _⟩ | ⟨_, outline, _, _⟩
  · rw [happen_step turn] at services ⊢
    have look := scene_move (s.takeStep frame values).1 task rest (s.takeStep frame values).2
    rw [services_move] at services
    exact secluded_scene look (secluded.passes passes services)
  · exact secluded.passes passes services
  · exact secluded_congr (congrArg Outline.machine outline) (congrArg Outline.behavior outline) services secluded

theorem secluded_run (orderly : s.Orderly s.running) (secluded : s.Secluded) (k : Nat) :
    (s.run (List.replicate k .step)).Secluded := by
  induction k generalizing s with
  | zero => exact secluded
  | succ k ih => exact ih (orderly.happen .step) (secluded_happen orderly secluded)

/-- What is known of a session in which a call is carried out: its configuration is as it was, and no
method starts other work. -/
structure Intact (d : Store) (whole : Value) (s : Session) : Prop where
  document : d.Keeps s.store whole
  secluded : s.Secluded

theorem Intact.scene {d : Store} {whole : Value} (intact : t.Intact d whole) (look : s.scene = t.scene) : s.Intact d whole := by
  rw [← under_of_scene look]
  exact ⟨intact.document, intact.secluded⟩

theorem shelters_receive (secluded : s.Secluded) {target : Target} {own : Bool} {turns : Nat} {action : Action} {request : Request}
    (received : s.receive target values = (t, .late own turns action request)) : t.Shelters action := by
  rcases s.receive_cases target values with ⟨fault, refused⟩ | ⟨m, member, _, launched⟩
  · cases received.symm.trans refused
  · have begun : ((s.announceCall target values).beginCall target.service m values).1.Secluded := secluded
    have shelters : ((s.announceCall target values).beginCall target.service m values).1.Shelters m.script.action :=
      begun.shelters member
    have late := launched.symm.trans received
    unfold launch at late
    split at late
    · cases late
    · cases late
      exact shelters
    · split at late
      next answer _ =>
        have same := congrArg Prod.snd late
        rcases Reception.promised_cases answer with ⟨fault, given⟩ | ⟨outcome, given⟩ <;> cases given.symm.trans same
      all_goals cases late

/-- Without behaviour to execute, an operation of the machine makes nothing watched. -/
theorem vigil?_operate (idle : s.machine = none ∨ s.behavior = .absent) (o : Operation) :
    (Milestone.operate s o).vigil? = none := by
  rcases idle with alone | absent
  · simp only [Milestone.vigil?, entrance?, alone, Option.bind_none]
  · have opened : (s.opened o).behavior = .absent := (s.grows_opened o).extends.behavior.trans absent
    cases entered : s.entrance? o with
    | none => simp only [Milestone.vigil?, entered, Option.bind_none]
    | some e => simp only [Milestone.vigil?, entered, Option.bind_some, Session.vigil?, opened, if_true]

theorem unwatched_act {action : Action} (shelters : s.Shelters action) (request : Request) :
    (s.acted? action request).bind Milestone.vigil? = none := by
  cases action with
  | fire event =>
    have idle := shelters.resolve_left (by simp [Action.isQuiet])
    simp only [acted?, Option.bind_some]
    exact vigil?_operate idle _
  | _ => rfl

theorem unwatched_call (secluded : s.Secluded) (place : Nat) (name : Value) (params : List Value) :
    (s.executed? place name params).bind Milestone.vigil? = none := by
  unfold executed?
  dsimp only
  split
  next m _ _ found =>
    have secluded : (s.beginCall place m params).1.Secluded := secluded
    have shelters := secluded.shelters (List.mem_of_find?_eq_some found)
    unfold called?
    split
    · exact unwatched_act shelters _
    · rfl
  · rfl

theorem untold (silent : s.reports = []) (orderly : s.Orderly s.running) : s.tells? .step = none := by
  cases told : s.tells? .step with
  | none => rfl
  | some vigil =>
    obtain ⟨_, _, _, _, _, _, reported, _⟩ := told_happen orderly told
    cases silent.symm.trans reported

theorem silent_happen (orderly : s.Orderly s.running) (silent : s.reports = [])
    (unwatched : (s.milestone? .step).bind Milestone.vigil? = none) : (s.happen .step).reports = [] := by
  have watches := (watches_happen orderly (untold silent orderly)).1
  rw [unwatched] at watches
  exact (watches.reports.trans (.of_eq silent)).eq_nil

end Session

end Interaction
