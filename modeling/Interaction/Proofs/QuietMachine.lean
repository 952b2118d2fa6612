import Interaction.Proofs.QuietServices
import Interaction.Proofs.TransitionWatches

/-! Work that leaves the machine alone. As long as services do not call the machine, and nobody
outside asks it for anything, one task at most does: the one that handles lines of input. -/

namespace Interaction

/-- Whether an occasion leaves the machine and the services alone, but for what tasks do. -/
def Occasion.isAside : Occasion → Bool
  | .event (.expose ..) | .event (.addService ..) | .event (.load _) | .event (.setRunning _) | .event .reset
  | .event (.fire _) | .event (.command _) | .event .stop | .event (.start _) => false
  | _ => true

namespace Session

variable {s : Session} {o : Occasion} {task own : Nat} {frames : List Frame} {supply : Supply}

theorem services_resume (s : Session) (task : Nat) (frames : List Frame) (outcome : Outcome) :
    (s.resume task frames outcome).coordinator = s.coordinator := by
  cases outcome <;> rfl

theorem services_move (s : Session) (task : Nat) (rest : List Frame) (move : Move) :
    (s.move task rest move).coordinator = s.coordinator := by
  cases move with
  | go frames values => rfl
  | yield frames => rfl
  | fail fault => rfl
  | await promise frames =>
    simp only [Session.move]
    split
    · exact services_resume ..
    · rfl

theorem services_doJob (s : Session) (job : Job) : (s.doJob job).coordinator = s.coordinator := by
  cases job with
  | run task => rfl
  | tell waiter id =>
    cases waiter with
    | resume task => exact services_resume ..
    | member join => rfl
    | report name =>
      simp only [doJob, reportBehavior]
      split <;> rfl

/-- What comes from outside without touching the machine starts quiet tasks only. -/
theorem tames_outside {e : Event} (aside : (Occasion.event e).isAside = true) (still : e.settles = false) :
    s.Tames (s.happen e) := by
  cases e with
  | step | answer index outcome | hear line => cases still
  | coordinate entry config => exact .coordinate s entry config
  | call config given => exact .callService s config given
  | execute place name params => exact .execute s place name params
  | register name place =>
    refine .aside (.register s name place) ?_ ?_ ?_ <;> simp only [happen, register]
    · split <;> rfl
    · split
      · rfl
      next registered =>
        unfold Coordinator.register at registered
        repeat' split at registered
        all_goals cases registered
        rfl
    · split <;> rfl
  | drain => exact .spawn s fun _ => by simp [Hushed, Frame.isQuiet]
  | write store => exact .aside (.store s store) rfl rfl rfl
  | _ => cases aside

theorem tames_aside {e : Event} (aside : (Occasion.event e).isAside = true) (outside : e ≠ .step) :
    s.Tames (s.happen e) ∨ ∃ id outcome asked, s.happen e = { s with asked, schedule := s.schedule.settle id outcome } := by
  cases e with
  | answer index outcome =>
    simp only [happen, answer]
    split
    · exact Or.inl (.refl s)
    · exact Or.inr ⟨_, outcome, s.asked, rfl⟩
  | hear line =>
    simp only [happen, hear]
    split
    · exact Or.inl (.refl s)
    · exact Or.inr ⟨_, _, none, rfl⟩
  | step => exact absurd rfl outside
  | _ => exact Or.inl (tames_outside aside rfl)

theorem unborn_ask (s : Session) (new : s.schedule.promises.size ≤ task) (frames : List Frame) :
    s.ask.1.schedule.origin? task ≠ some (.task frames) := by
  intro held
  have added : (s.schedule.add { origin := .outside }).1.origin? task = some (.task frames) := held
  rw [Schedule.origin?_add] at added
  split at added
  · cases added
  · exact absurd (Schedule.origin?_inside added) (Nat.not_lt_of_le new)

theorem services_occur (orderly : s.Orderly s.running) (aside : o.isAside = true) :
    (s.occur o).coordinator.services = s.coordinator.services := by
  cases o with
  | answering state transition => rfl
  | furnish factory => rfl
  | event e =>
    by_cases outside : e = .step
    · subst outside
      cases stepped : s.step with
      | none => rw [occur, happen, stepped, Option.getD_none]
      | some t =>
        rw [occur, happen, stepped, Option.getD_some]
        rcases step_cases stepped with ⟨_, _, _, rfl⟩ | ⟨task, frame, rest, values, _, rfl⟩ | ⟨job, queue, _, _, rfl⟩
        · rfl
        · rw [services_move]
          by_cases asks : frame = .ask
          · subst asks
            rfl
          · exact (Tames.takeStep s asks values orderly.tracked).services
        · rw [services_doJob]
          rfl
    · rcases tames_aside aside outside with tames | ⟨_, _, _, same⟩
      · exact tames.services
      · rw [occur, same]

theorem hushed_born (orderly : s.Orderly s.running) (quiet : s.coordinator.Quiet) (aside : o.isAside = true)
    (new : s.schedule.promises.size ≤ task) (stands : (s.occur o).Stands task frames supply) : Hushed frames := by
  have unborn {before : Supply} (stood : s.Stands task frames before) : Hushed frames :=
    absurd (stood.alive orderly).1.1 (Nat.not_lt_of_le new)
  rcases o.event_or_exchange with ⟨e, rfl⟩ | other
  · by_cases outside : e = .step
    · subst outside
      cases stepped : s.step with
      | none =>
        rw [occur, happen, stepped, Option.getD_none] at stands
        exact unborn stands
      | some t =>
        have same : s.occur (.event .step) = t := by rw [occur, happen, stepped, Option.getD_some]
        rcases step_cases stepped with ⟨_, _, _, rfl⟩ | ⟨own, frame, rest, values, turn, rfl⟩ | ⟨job, queue, turn, next, rfl⟩
        · rw [same] at stands
          exact unborn (stands_finish stands)
        · have held := (stands_new orderly turn new stands).2
          by_cases asks : frame = .ask
          · subst asks
            exact absurd held (s.unborn_ask new frames)
          · exact (Tames.takeStep s asks values orderly.tracked).hushed quiet task frames new held
        · rw [same] at stands
          rw [running, turn] at orderly
          obtain ⟨before, stood, _⟩ := stands_doJob orderly turn next stands
          exact absurd (stood.alive (by rwa [running, turn])).1.1 (Nat.not_lt_of_le new)
    · rcases tames_aside aside outside with tames | ⟨id, outcome, asked, same⟩
      · exact tames.hushed quiet task frames new (stands_fresh orderly tames.grows new stands).2
      · have settled : (s.happen e).schedule = s.schedule.settle id outcome := by rw [same]
        exact unborn ((stands_settle (fun _ _ => by rw [same]) settled).mp stands)
  · exact unborn ((stands_other other).mp stands)

/-- Whether services are quiet, and so are all tasks but one. -/
structure Alone (s : Session) (own : Nat) : Prop where
  quiet : s.coordinator.Quiet
  others : ∀ task frames supply, task ≠ own → s.Stands task frames supply → Hushed frames

theorem Alone.occur (alone : s.Alone own) (orderly : s.Orderly s.running) (aside : o.isAside = true) :
    (s.occur o).Alone own := by
  refine ⟨quiet_congr (services_occur orderly aside) alone.quiet, fun task frames supply other stands => ?_⟩
  by_cases inside : task < s.schedule.promises.size
  · by_cases steps : s.Steps o task
    · obtain ⟨rfl, frame, rest, values, turn⟩ := steps
      have hushed := alone.others task _ _ other (.turn turn)
      obtain ⟨next, before, stand, rfl, _⟩ := stands_own orderly turn stands
      intro step member
      rcases List.mem_append.mp member with new | old
      · exact hushed_step alone.quiet (hushed frame (List.mem_cons_self ..)) stand step new
      · exact hushed step (List.mem_cons_of_mem _ old)
    · obtain ⟨before, stood, _⟩ := stands_occur orderly o inside steps stands
      exact alone.others task frames before other stood
  · exact hushed_born orderly alone.quiet aside (Nat.le_of_not_lt inside) stands

theorem Alone.silent (alone : s.Alone own) (aside : o.isAside = true) (idle : ¬ s.Steps o own) (u : Session) (operation : Operation) :
    s.met? o ≠ some (.operate u operation) := by
  intro met
  cases o with
  | answering state transition => cases met
  | furnish factory => cases met
  | event e =>
    cases e with
    | step =>
      simp only [met?, milestone?] at met
      split at met
      next task frame rest values turn =>
        by_cases same : task = own
        · subst same
          exact idle ⟨rfl, frame, rest, values, turn⟩
        · have hushed := alone.others task _ _ same (.turn turn)
          exact passed?_quiet alone.quiet (hushed frame (List.mem_cons_self ..)) task values u operation met
      · cases met
    | execute place name params =>
      rw [met?, milestone?, executed?_quiet alone.quiet] at met
      cases met
    | load model => cases aside
    | setRunning on => cases aside
    | reset => cases aside
    | fire name => cases aside
    | _ => cases met

theorem tracked_silent (orderly : s.Orderly s.running) (silent : ∀ u operation, s.met? o ≠ some (.operate u operation)) :
    (s.occur o).tracked ⊆ s.tracked := by
  rcases o.event_or_exchange with ⟨e, rfl⟩ | other
  · cases told : s.tells? e with
    | some vigil =>
      obtain ⟨_, _, _, _, _, tracked, _⟩ := told_happen orderly told
      rw [occur, tracked]
      exact List.erase_subset
    | none =>
      have watches := (watches_happen orderly told).1
      have none : (s.milestone? e).bind Milestone.vigil? = none := by
        cases passed : s.milestone? e with
        | none => rfl
        | some k =>
          cases k with
          | operate u operation => exact absurd passed (silent u operation)
          | enter u task target => rfl
          | place u task config whole values => rfl
      rw [none] at watches
      rw [occur, watches.tracked]
      simp
  · rw [(occur_other other).2.2.1]
    exact List.Subset.refl _

end Session

end Interaction
