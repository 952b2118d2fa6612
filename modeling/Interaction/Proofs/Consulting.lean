import Interaction.Proofs.PurposeTasks
import Interaction.Proofs.Lifecycle
import Mathlib.Data.List.Perm.Basic

/-! What the behaviour of a machine is asked for. A transition asks for one thing at once. If that
is the configuration of the transition, a task is left behind that asks for the target later, once
what was answered has ended well. Nobody else asks for anything. -/

namespace Interaction

def Occurrence.isConsulted : Occurrence → Bool
  | .stateExecuted _ | .transitionExecuted _ => true
  | _ => false

theorem Occurrence.isAppeal_of_isConsulted (o : Occurrence) (consulted : o.isConsulted = true) : o.isAppeal = true := by
  cases o with
  | stateExecuted config => rfl
  | transitionExecuted config => rfl
  | _ => cases consulted

namespace Milestone

theorem toList_consultation? (k : Milestone) : k.consultation?.toList = k.opening?.toList ++ k.closing?.toList := by
  cases k with
  | operate s o =>
    simp only [consultation?, closing?, Option.or_none, Option.toList_none, List.append_nil]
  | enter s task target => rfl
  | place s task config whole values => rfl

theorem shows_consulted (s : Session) (entry : Entry) (config : Value) :
    (s.shows entry config).filter Occurrence.isConsulted = s.shows entry config := by
  unfold Session.shows
  split <;> rfl

theorem shown_consulted (k : Milestone) :
    k.shown.filter Occurrence.isConsulted = k.consultation?.toList.flatMap Consultation.shown := by
  cases k with
  | operate s o =>
    simp only [shown, consultation?, opening?, closing?, Option.or_none]
    cases s.entrance? o with
    | none => rfl
    | some e =>
      simp only [Session.firstShown, shows_consulted, Option.map_some, Option.toList_some, List.flatMap_singleton]
      rfl
  | enter s task target =>
    simp only [shown, shows_consulted, consultation?, opening?, closing?, Option.none_or, Option.toList_some,
      List.flatMap_singleton]
    rfl
  | place s task config whole values =>
    simp only [shown, Session.recorded, consultation?, opening?, closing?, Option.or_none, Option.toList_none]
    split
    · cases s.isCurrent config <;> rfl
    · rfl

end Milestone

namespace Session

def Succeeded (s : Session) (id : Nat) : Prop :=
  ∃ values, s.schedule.outcome? id = some (.ok values)

variable {s : Session} {id : Nat}

theorem outcome_kept (orderly : s.Orderly s.running) (o : Occasion) {outcome : Outcome}
    (settled : s.schedule.outcome? id = some outcome) : (s.occur o).schedule.outcome? id = some outcome :=
  ((occur_keeps orderly o).2.1 id (by simp [settled])).trans settled

theorem Succeeded.occur (succeeded : s.Succeeded id) (orderly : s.Orderly s.running) (o : Occasion) :
    (s.occur o).Succeeded id := by
  obtain ⟨values, settled⟩ := succeeded
  exact ⟨values, outcome_kept orderly o settled⟩

theorem behavior_done (k : Milestone) : k.done.behavior = k.session.behavior := by
  cases k with
  | operate s o => exact congrArg Outline.behavior (s.outline_operate o)
  | enter s task target => exact congrArg Outline.behavior (s.consult_cases .state (s.store.field target "do")).1
  | place s task config whole values => exact congrArg Outline.behavior (s.outline_place config whole values)

theorem attached_occur (orderly : s.Orderly s.running) (attached : s.behavior ≠ .absent) (o : Occasion) :
    (s.occur o).behavior ≠ .absent := by
  cases o with
  | event e =>
    have same : (s.happen e).behavior = ((s.milestone? e).elim s Milestone.done).behavior :=
      congrArg Outline.behavior (outline_happen orderly e)
    intro absent
    rw [occur, same] at absent
    cases passed : s.milestone? e with
    | none =>
      rw [passed] at absent
      exact attached absent
    | some k =>
      have before : k.session.behavior = s.behavior := congrArg Outline.behavior (meets_happen orderly passed).calm.outline
      rw [passed, Option.elim_some, behavior_done, before] at absent
      exact attached absent
  | answering state transition => nofun
  | furnish factory => exact attached

/-- Whether a transition with a configuration of its own asks for that only, or leaves a task behind. -/
theorem follower?_cases {e : Entrance} (attached : s.behavior ≠ .absent) (given : s.store.truthy e.config = true) :
    ((∃ fault, (s.executeTransition e.config).2 = .error fault) ∧ s.follower? e = none) ∨
      ∃ f, s.follower? e = some f ∧ f.target = e.target ∧ (s.executeTransition e.config).2 = .ok f.answer := by
  have asked : ¬ (s.behavior = .absent ∨ s.store.truthy e.config = false) := by simp [attached, given]
  unfold follower?
  rw [if_neg asked]
  cases s.executeTransition e.config with
  | mk t result =>
    cases result with
    | error fault => exact Or.inl ⟨⟨fault, rfl⟩, rfl⟩
    | ok answer => exact Or.inr ⟨_, rfl, rfl, rfl⟩

end Session

namespace Chronicle

def consultations (c : Chronicle) : List Consultation :=
  c.milestones.filterMap Milestone.consultation?

/-- The tasks that transitions have left behind. -/
def followers (c : Chronicle) : List Follower :=
  c.milestones.filterMap Milestone.follower?

/-- What the behaviour has been asked for by a transition: at once, and by the task that is left behind. -/
def calls (c : Chronicle) (k : Milestone) : List Consultation :=
  k.opening?.toList ++ k.follower?.toList.flatMap fun f => (c.accomplished f.task).filterMap Milestone.consultation?

/-- The way of a task that a transition leaves behind: it waits for what the behaviour of the transition
has answered, and enters the target only if that has ended well. -/
structure Follows (c : Chronicle) (f : Follower) : Prop where
  errand : c.Errand f.task (.enter f.target)
  stands : ∀ frames supply, c.session.Stands f.task frames supply →
    frames = f.frames ∧ supply = .values [] ∨ frames = [] ∨ frames = [.enterState f.target] ∧ ∃ id, f.answer = some id ∧
      (supply = .promise id ∨ (∃ values, supply = .values values) ∧ c.session.Succeeded id)
  entered : ∀ k ∈ c.accomplished f.task, ∃ w id, k = .enter w f.task f.target ∧ f.answer = some id ∧
    w.Succeeded id ∧ c.session.Succeeded id
  ended : c.session.schedule.outcome? f.task ≠ none → c.accomplished f.task ≠ [] ∨ f.answer = none ∨
    ∃ id fault, f.answer = some id ∧ c.session.schedule.outcome? id = some (.error fault)

variable {c : Chronicle} {f : Follower} {o : Occasion} {k : Milestone}

theorem Follows.entered_kept (follows : c.Follows f) (orderly : c.session.Orderly c.session.running) (o : Occasion) :
    ∀ k ∈ c.accomplished f.task, ∃ w id, k = .enter w f.task f.target ∧ f.answer = some id ∧ w.Succeeded id ∧
      (c.occur o).session.Succeeded id := by
  intro k member
  obtain ⟨w, id, rfl, answered, first, last⟩ := follows.entered k member
  exact ⟨w, id, rfl, answered, first, last.occur orderly o⟩

theorem Follows.idle (follows : c.Follows f) (orderly : c.session.Orderly c.session.running)
    (idle : ¬ c.session.Steps o f.task) : (c.occur o).Follows f := by
  have same := accomplished_idle idle
  constructor
  case errand => exact follows.errand.idle orderly idle
  case stands =>
    intro frames supply stands
    obtain ⟨before, stood, supplied⟩ := Session.stands_occur orderly o follows.errand.inside idle stands
    rcases follows.stands frames before stood with ⟨steps, rfl⟩ | none | ⟨ahead, id, answered, waits⟩
    · rcases supplied with unchanged | ⟨_, _, waited, _⟩
      · exact Or.inl ⟨steps, unchanged⟩
      · cases waited
    · exact Or.inr (Or.inl none)
    · refine Or.inr (Or.inr ⟨ahead, id, answered, ?_⟩)
      rcases supplied with rfl | ⟨promise, values, rfl, settled, rfl⟩
      · exact waits.imp_right (And.imp_right fun succeeded => succeeded.occur orderly o)
      · rcases waits with waited | ⟨⟨_, given⟩, _⟩
        · cases waited
          exact Or.inr ⟨⟨values, rfl⟩, Session.Succeeded.occur ⟨values, settled⟩ orderly o⟩
        · cases given
  case entered => exact same ▸ follows.entered_kept orderly o
  case ended =>
    intro settled
    rw [same]
    obtain ⟨outcome, settled⟩ := Option.ne_none_iff_exists'.mp settled
    have finished {supply : Supply} (stands : c.session.Stands f.task [] supply) : c.accomplished f.task ≠ [] := by
      rcases follows.errand.stands _ _ stands with ⟨_, bound⟩ | ⟨done, _⟩
      · exact False.elim (bound_nil bound)
      · exact done
    -- It has ended after the last step, or was told that what it waits for has failed.
    rcases Session.settles_idle orderly follows.errand.role idle settled with before | ⟨_, stands, _⟩ |
      ⟨frames, promise, fault, stands, failed, _⟩
    · refine (follows.ended (by simp [before])).imp_right (Or.imp_right ?_)
      rintro ⟨id, fault, answered, failed⟩
      exact ⟨id, fault, answered, Session.outcome_kept orderly o failed⟩
    · exact Or.inl (finished stands)
    · rcases follows.stands _ _ stands with ⟨_, given⟩ | rfl | ⟨_, id, answered, waited | ⟨⟨_, given⟩, _⟩⟩
      · cases given
      · exact Or.inl (finished stands)
      · cases waited
        exact Or.inr (Or.inr ⟨promise, fault, answered, Session.outcome_kept orderly o failed⟩)
      · cases given

/-- The first step waits for what was answered, or fails if that cannot be waited for. -/
theorem Follows.wait (follows : c.Follows f) (orderly : c.session.Orderly c.session.running) {frame : Frame}
    {rest : List Frame} {values : List Value} (turn : c.session.turn = some { task := f.task, frames := frame :: rest, values })
    (first : frame :: rest = f.frames) : (c.occur (.event .step)).Follows f := by
  obtain ⟨rfl, rfl⟩ := List.cons.inj first
  have taken : c.session.takeStep (Session.afterTransition f.answer) values =
      (c.session, f.answer.elim (.fail (.notAwaitable Scalar.null.kind)) (.await · [])) := by
    cases f.answer <;> rfl
  have same : (c.occur (.event .step)).accomplished f.task = c.accomplished f.task := by
    rw [accomplished_step turn]
    cases f.answer <;> exact List.append_nil _
  constructor
  case errand => exact follows.errand.occur orderly _
  case stands =>
    intro frames supply stands
    obtain ⟨next, before, stand, rfl, supplied⟩ := Session.stands_own orderly turn stands
    rw [taken] at stand supplied
    cases answered : f.answer with
    | none =>
      rw [answered] at stand
      cases stand
    | some id =>
      rw [answered] at stand
      cases stand
      refine Or.inr (Or.inr ⟨rfl, id, rfl, ?_⟩)
      rcases supplied with rfl | ⟨promise, given, waited, settled, rfl⟩
      · exact Or.inl rfl
      · cases waited
        exact Or.inr ⟨⟨given, rfl⟩, Session.Succeeded.occur ⟨given, settled⟩ orderly _⟩
  case entered => exact same ▸ follows.entered_kept orderly _
  case ended =>
    intro settled
    obtain ⟨outcome, settled⟩ := Option.ne_none_iff_exists'.mp settled
    obtain ⟨fault, _, failed⟩ := Session.settles_step orderly turn settled
    rw [taken] at failed
    cases answered : f.answer with
    | none => exact Or.inr (Or.inl rfl)
    | some id =>
      rw [answered] at failed
      rcases failed with failed | ⟨promise, next, waits, failed⟩
      · cases failed
      · cases waits
        exact Or.inr (Or.inr ⟨id, fault, rfl, Session.outcome_kept orderly _ failed⟩)

theorem Follows.enter (follows : c.Follows f) (orderly : c.session.Orderly c.session.running) {values : List Value}
    (turn : c.session.turn = some { task := f.task, frames := [.enterState f.target], values }) {id : Nat}
    (answered : f.answer = some id) (succeeded : c.session.Succeeded id) : (c.occur (.event .step)).Follows f := by
  have errand := follows.errand.occur orderly (.event .step)
  have done : (c.occur (.event .step)).accomplished f.task =
      c.accomplished f.task ++ [.enter c.session f.task f.target] := by
    rw [accomplished_step turn]
    simp [Session.passed?, Milestone.task?]
  constructor
  case errand => exact errand
  case stands =>
    intro frames supply stands
    rcases errand.stands frames supply stands with ⟨none, _⟩ | ⟨_, empty, _⟩
    · simp [done] at none
    · exact Or.inr (Or.inl empty)
  case entered =>
    intro k member
    rw [done] at member
    rcases List.mem_append.mp member with old | new
    · exact follows.entered_kept orderly _ k old
    · cases List.mem_singleton.mp new
      exact ⟨c.session, id, rfl, answered, succeeded, succeeded.occur orderly _⟩
  case ended => exact fun _ => Or.inl (by simp [done])

theorem Follows.occur (follows : c.Follows f) (orderly : c.session.Orderly c.session.running) (o : Occasion) :
    (c.occur o).Follows f := by
  by_cases idle : c.session.Steps o f.task
  · obtain ⟨rfl, frame, rest, values, turn⟩ := idle
    rcases follows.stands _ _ (.turn turn) with ⟨first, _⟩ | none | ⟨second, id, answered, waited | ⟨_, succeeded⟩⟩
    · exact follows.wait orderly turn first
    · cases none
    · cases waited
    · rw [second] at turn
      exact follows.enter orderly turn answered succeeded
  · exact follows.idle orderly idle

theorem Follows.start (dated : c.Dated) (orderly : c.session.Orderly c.session.running)
    (met : c.session.met? o = some k) (left : k.follower? = some f) :
    (c.occur o).Follows f ∧ (c.occur o).accomplished f.task = [] ∧ f.task ∈ (c.occur o).session.tracked ∧
      c.session.schedule.promises.size ≤ f.task := by
  cases o with
  | answering state transition => cases met
  | furnish factory => cases met
  | event e =>
    obtain ⟨new, tracked, queued, held⟩ := Session.follower_born orderly met left
    have later := orderly.occur (.event e)
    have plain : Interaction.Plain [Session.afterTransition f.answer] := by simp [Interaction.Plain, Session.purpose_afterTransition]
    have bound : Bound (.enter f.target) f.frames := (bound_last rfl).prepend plain
    have errand : (c.occur (.event e)).Errand f.task (.enter f.target) := .start dated orderly new queued held bound
    have alive := ((Session.Stands.queued queued held).alive later).1.2
    have none : (c.occur (.event e)).accomplished f.task = [] := by
      rcases errand.stands _ _ (.queued queued held) with ⟨none, _⟩ | ⟨_, empty, _⟩
      · exact none
      · cases empty
    refine ⟨⟨errand, ?_, ?_, fun settled => absurd alive settled⟩, none, tracked, new⟩
    · intro frames supply stands
      exact Or.inl ((Session.stands_queued later queued held).mp stands)
    · simp [none]

theorem Follows.course (follows : c.Follows f) (orderly : c.session.Orderly c.session.running)
    (occasions : List Occasion) : (c.course occasions).Follows f :=
  (along orderly (P := fun c => c.Follows f) follows (fun _ o orderly follows => follows.occur orderly o) occasions).2

/-- When a drain returns, whatever was tracked before it was called is settled. -/
theorem drained {root task : Nat} (orderly : c.session.Orderly c.session.running) (tracked : root ∈ c.session.tracked)
    (before during : List Occasion) {rest : List Frame} {first last : List Value}
    (called : (c.course before).session.turn = some { task, frames := .drain :: rest, values := first })
    (returned : ((c.course before).course during).session.turn = some { task, frames := rest, values := last }) :
    ((c.course before).course during).session.schedule.outcome? root ≠ none := by
  have known := along orderly (P := fun c => root ∈ c.session.tracked ∨ c.session.schedule.outcome? root ≠ none)
    (Or.inl tracked) (fun _ o orderly => Session.tracked_occur orderly o) before
  obtain ⟨later, drains⟩ := along known.1 (P := fun c => c.session.Drains task rest root) (.called known.2 called)
    (fun _ o orderly => Session.drains_occur orderly o) during
  exact drains.returned later returned

theorem settled_course {id : Nat} (orderly : c.session.Orderly c.session.running)
    (settled : c.session.schedule.outcome? id ≠ none) (occasions : List Occasion) :
    (c.course occasions).session.schedule.outcome? id ≠ none := by
  refine (along orderly (P := fun c => c.session.schedule.outcome? id ≠ none) settled ?_ occasions).2
  intro d o orderly settled
  exact fun open_ => settled (((Session.occur_keeps orderly o).2.1 id settled).symm.trans open_)

structure Consults (c : Chronicle) : Prop where
  attached : c.session.behavior ≠ .absent
  dated : c.Dated
  follows : ∀ f ∈ c.followers, c.Follows f
  apart : (c.followers.map (·.task)).Nodup
  intended : ∀ task target, c.session.Intends task (.enter target) → ∃ f ∈ c.followers, f.task = task
  entered : ∀ k ∈ c.milestones, k.closing? ≠ none → ∃ f ∈ c.followers, k.task? = some f.task

theorem followers_occur (c : Chronicle) (o : Occasion) :
    (c.occur o).followers = c.followers ++ ((c.session.met? o).bind Milestone.follower?).toList :=
  c.filterMap_occur o Milestone.follower?

theorem Consults.occur (consults : c.Consults) (orderly : c.session.Orderly c.session.running) (o : Occasion) :
    (c.occur o).Consults := by
  have left : ∀ f ∈ (c.occur o).followers, f ∈ c.followers ∨ ∃ k, c.session.met? o = some k ∧ k.follower? = some f := by
    intro f member
    rw [followers_occur] at member
    refine (List.mem_append.mp member).imp_right fun new => ?_
    exact Option.bind_eq_some_iff.mp (Option.mem_toList.mp new)
  have more {f : Follower} (member : f ∈ c.followers) : f ∈ (c.occur o).followers := by
    rw [followers_occur]
    exact List.mem_append_left _ member
  constructor
  case attached => exact Session.attached_occur orderly consults.attached o
  case dated => exact consults.dated.occur orderly o
  case follows =>
    intro f member
    rcases left f member with old | ⟨k, met, left⟩
    · exact (consults.follows f old).occur orderly o
    · exact (Follows.start consults.dated orderly met left).1
  case apart =>
    rw [followers_occur, List.map_append]
    cases left : (c.session.met? o).bind Milestone.follower? with
    | none => simpa using consults.apart
    | some f =>
      obtain ⟨k, met, left⟩ := Option.bind_eq_some_iff.mp left
      obtain ⟨-, -, -, new⟩ := Follows.start consults.dated orderly met left
      refine List.nodup_append.mpr ⟨consults.apart, by simp, ?_⟩
      intro task old other same
      obtain ⟨f', member, rfl⟩ := List.mem_map.mp old
      rw [List.mem_singleton.mp same]
      exact Nat.ne_of_lt (Nat.lt_of_lt_of_le (consults.follows f' member).errand.inside new)
  case intended =>
    intro task target intends
    rcases Session.intends_occur orderly o intends with before | ⟨place, other, _⟩ | ⟨k, f, met, left, own, _⟩
    · obtain ⟨f, member, own⟩ := consults.intended task target before
      exact ⟨f, more member, own⟩
    · cases other
    · refine ⟨f, ?_, own⟩
      rw [followers_occur, met, Option.bind_some, left]
      exact List.mem_append_right _ (List.mem_singleton_self f)
  case entered =>
    intro k member closes
    rcases List.mem_append.mp member with old | new
    · obtain ⟨f, member, own⟩ := consults.entered k old closes
      exact ⟨f, more member, own⟩
    · cases k with
      | operate u operation => exact absurd rfl closes
      | place u task config whole values => exact absurd rfl closes
      | enter u task target =>
        obtain ⟨x, serving, intends⟩ := Session.met?_serving (Option.mem_toList.mp new) rfl
        cases serving.purpose
        obtain ⟨f, left, rfl⟩ := consults.intended task target intends
        exact ⟨f, more left, rfl⟩

theorem Consults.start {s : Session} (fresh : s.Fresh) (attached : s.behavior ≠ .absent) :
    ({ session := s } : Chronicle).Consults where
  attached := attached
  dated _ member := nomatch member
  follows _ member := nomatch member
  apart := .nil
  intended _ _ intends := absurd intends fresh.intends
  entered _ member := nomatch member

theorem Consults.course (consults : c.Consults) (orderly : c.session.Orderly c.session.running)
    (occasions : List Occasion) : (c.course occasions).Consults :=
  (along orderly (P := Consults) consults (fun _ o orderly consults => consults.occur orderly o) occasions).2

theorem filterMap_perm_flatMap {α β κ : Type} [DecidableEq κ] (key : α → κ) (g : α → Option β) {keys : List κ}
    (apart : keys.Nodup) (l : List α) (among : ∀ a ∈ l, g a ≠ none → key a ∈ keys) :
    (l.filterMap g).Perm (keys.flatMap fun t => (l.filter fun a => key a = t).filterMap g) := by
  induction keys generalizing l with
  | nil =>
    have nothing : l.filterMap g = [] := by
      rw [List.filterMap_eq_nil_iff]
      intro a member
      apply Classical.byContradiction
      intro found
      cases among a member found
    rw [nothing]
    exact .refl _
  | cons t ts ih =>
    -- The other groups are those of what is left without the first one.
    obtain ⟨fresh, apart⟩ := List.nodup_cons.mp apart
    have rest := ih apart (l.filter fun a => !decide (key a = t)) (by
      intro a member found
      obtain ⟨member, other⟩ := List.mem_filter.mp member
      exact (List.mem_cons.mp (among a member found)).resolve_left (by simpa using other))
    have others : ∀ t' ∈ ts, ((l.filter fun a => !decide (key a = t)).filter fun a => key a = t').filterMap g =
        (l.filter fun a => key a = t').filterMap g := by
      intro t' member
      rw [List.filter_filter]
      congr 1
      apply List.filter_congr
      intro a _
      by_cases same : key a = t'
      · have other : key a ≠ t := by
          rintro rfl
          exact fresh (same ▸ member)
        simp [same, same ▸ other]
      · simp [same]
    rw [List.flatMap_congr others] at rest
    have split := ((List.filter_append_perm (fun a => decide (key a = t)) l).filterMap g).symm
    rw [List.filterMap_append] at split
    exact split.trans (rest.append_left _)

/-- The behaviour is asked for what the transitions ask it for, and for nothing else. -/
theorem Consults.perm (consults : c.Consults) : c.consultations.Perm (c.milestones.flatMap c.calls) := by
  have tasks : (c.followers.map fun f => some f.task).Nodup := by
    refine List.pairwise_map.mpr ((List.pairwise_map.mp consults.apart).imp ?_)
    intro f g other same
    exact other (Option.some.inj same)
  have closings : (c.milestones.filterMap Milestone.closing?).Perm
      (c.followers.flatMap fun f => (c.accomplished f.task).filterMap Milestone.consultation?) := by
    have grouped := filterMap_perm_flatMap Milestone.task? Milestone.closing? tasks c.milestones (by
      intro k member closes
      obtain ⟨f, left, own⟩ := consults.entered k member closes
      exact List.mem_map.mpr ⟨f, left, own.symm⟩)
    rw [List.flatMap_map] at grouped
    have each : ∀ f ∈ c.followers, (c.accomplished f.task).filterMap Milestone.closing? =
        (c.accomplished f.task).filterMap Milestone.consultation? := by
      intro f left
      apply List.filterMap_congr
      intro k member
      obtain ⟨w, id, rfl, _⟩ := (consults.follows f left).entered k member
      rfl
    exact grouped.trans (.of_eq (List.flatMap_congr each))
  have all : c.consultations = c.milestones.flatMap fun k => k.opening?.toList ++ k.closing?.toList := by
    simp only [consultations, List.filterMap_eq_flatMap_toList, Milestone.toList_consultation?]
  have left : (c.milestones.flatMap fun k => k.follower?.toList.flatMap fun f =>
      (c.accomplished f.task).filterMap Milestone.consultation?) =
      c.followers.flatMap fun f => (c.accomplished f.task).filterMap Milestone.consultation? := by
    rw [followers, List.filterMap_eq_flatMap_toList, List.flatMap_assoc]
  have openings := List.flatMap_append_perm c.milestones (fun k => k.opening?.toList) fun k => k.closing?.toList
  rw [← List.filterMap_eq_flatMap_toList Milestone.closing?, ← all] at openings
  refine openings.symm.trans ((closings.append_left _).trans ?_)
  rw [← left]
  exact List.flatMap_append_perm ..

variable {u : Session} {operation : Operation} {e : Entrance}

/-- A transition without a configuration asks for its target at once, and for nothing later. -/
theorem calls_silent (d : Chronicle) (entered : u.entrance? operation = some e)
    (silent : (u.opened operation).store.truthy e.config = false) :
    d.calls (.operate u operation) =
      [{ session := u.opened operation, entry := .state, config := (u.opened operation).store.field e.target "do" }] := by
  have alone : Milestone.follower? (.operate u operation) = none := by
    simp only [Milestone.follower?, entered, Option.bind_some, Session.follower?]
    exact if_pos (Or.inr silent)
  rw [calls, alone]
  simp [Milestone.opening?, entered, Session.behaviorOf, silent]

theorem opening_given (entered : u.entrance? operation = some e)
    (given : (u.opened operation).store.truthy e.config = true) : Milestone.opening? (.operate u operation) =
      some { session := u.opened operation, entry := .transition, config := e.config } := by
  simp [Milestone.opening?, entered, Session.behaviorOf, given]

/-- A transition with a configuration asks for that at once, and for its target when what was answered
has ended well. -/
theorem Follows.calls {d : Chronicle} (follows : d.Follows f) (entered : u.entrance? operation = some e)
    (given : (u.opened operation).store.truthy e.config = true)
    (left : Milestone.follower? (.operate u operation) = some f) :
    (d.accomplished f.task = [] ∧ d.calls (.operate u operation) =
        [{ session := u.opened operation, entry := .transition, config := e.config }]) ∨
      ∃ id w, f.answer = some id ∧ w.Succeeded id ∧ d.session.Succeeded id ∧ d.calls (.operate u operation) =
        [{ session := u.opened operation, entry := .transition, config := e.config },
          { session := w, entry := .state, config := w.store.field f.target "do" }] := by
  rw [Chronicle.calls, opening_given entered given, left]
  rcases follows.errand.once with none | ⟨k, one, _⟩
  · exact Or.inl ⟨none, by simp [none]⟩
  · obtain ⟨w, id, rfl, answered, first, last⟩ := follows.entered k (one ▸ List.mem_singleton_self k)
    refine Or.inr ⟨id, w, answered, first, last, ?_⟩
    simp [one, Milestone.consultation?, Milestone.opening?, Milestone.closing?]

/-- Once a drain has returned, a transition whose answer has ended well has asked for its target. -/
theorem Follows.called {root : Chronicle} (follows : root.Follows f) (orderly : root.session.Orderly root.session.running)
    (tracked : f.task ∈ root.session.tracked) {before during after : List Occasion} {task id : Nat} {rest : List Frame}
    {first last : List Value}
    (called : (root.course before).session.turn = some { task, frames := .drain :: rest, values := first })
    (returned : (root.course (before ++ during)).session.turn = some { task, frames := rest, values := last })
    (answered : f.answer = some id) (succeeded : (root.course (before ++ during ++ after)).session.Succeeded id) :
    (root.course (before ++ during ++ after)).accomplished f.task ≠ [] := by
  rw [course_append root before during] at returned
  have settled := drained orderly tracked before during called returned
  rw [← course_append] at settled
  have ended := settled_course (orderly_course orderly _) settled after
  rw [← course_append] at ended
  rcases (follows.course orderly (before ++ during ++ after)).ended ended with done | none | ⟨other, fault, same, failed⟩
  · exact done
  · cases none.symm.trans answered
  · cases same.symm.trans answered
    obtain ⟨values, ok⟩ := succeeded
    cases failed.symm.trans ok

end Chronicle

namespace Session

/-- A machine is in the state that it enters, and remembers that, before any behaviour is asked for. -/
theorem enters_opened {u : Session} {o : Operation} {e : Entrance} (entered : u.entrance? o = some e) :
    ∃ m n, u.machine = some m ∧ (u.opened o).machine = some n ∧ n.current = some e.target ∧
      n.history = Machine.remember m.limit (m.history ++
        [⟨Machine.nameOf u.store m.current, Machine.nameOf u.store (some e.target), e.event⟩]) := by
  obtain ⟨m, machine, enters⟩ := Option.bind_eq_some_iff.mp entered
  have operates := m.operates u.store o
  have opened : (u.opened o).machine = u.machine.map fun m => (m.operate u.store o).1 :=
    congrArg Outline.machine (u.outline_opened o)
  rw [machine, Option.map_some] at opened
  rw [enters] at operates
  refine ⟨m, _, machine, opened, ?_⟩
  generalize (m.operate u.store o).1 = n at operates
  cases operates <;> exact ⟨rfl, rfl⟩

/-- Whatever happens to a machine and however its behaviour answers, every transition has led into its
target, and is remembered, when the behaviour is first asked for something. Without a configuration
the transition asks for the target at once, and for nothing else. With one it asks for that at once,
and for the target at most once: when what was answered has ended well, and by the time that a drain
has returned. The behaviour is asked for nothing else. -/
theorem behavior_consulted {s : Session} (fresh : s.Fresh) (attached : s.behavior ≠ .absent) (occasions : List Occasion) :
    let c := ({ session := s } : Chronicle).course occasions
    (c.session.trace.filter Occurrence.isConsulted).reverse =
        (s.trace.filter Occurrence.isConsulted).reverse ++ c.consultations.flatMap Consultation.shown ∧
      c.consultations.Perm (c.milestones.flatMap c.calls) ∧
      ∀ o u operation e, c.session.met? o = some (.operate u operation) → u.entrance? operation = some e →
        let v := u.opened operation
        (∃ m n, u.machine = some m ∧ v.machine = some n ∧ n.current = some e.target ∧
          n.history = Machine.remember m.limit (m.history ++
            [⟨Machine.nameOf u.store m.current, Machine.nameOf u.store (some e.target), e.event⟩])) ∧
        ∀ before during after,
          let d := (c.occur o).course (before ++ during ++ after)
          let calls := d.calls (.operate u operation)
          (v.store.truthy e.config = false → calls = [⟨v, .state, v.store.field e.target "do"⟩]) ∧
          (v.store.truthy e.config = true →
            (calls = [⟨v, .transition, e.config⟩] ∨ ∃ id w, (v.executeTransition e.config).2 = .ok (some id) ∧
              w.Succeeded id ∧ d.session.Succeeded id ∧
                calls = [⟨v, .transition, e.config⟩, ⟨w, .state, w.store.field e.target "do"⟩]) ∧
            ∀ id task rest first last, (v.executeTransition e.config).2 = .ok (some id) → d.session.Succeeded id →
              ((c.occur o).course before).session.turn = some { task, frames := .drain :: rest, values := first } →
              ((c.occur o).course (before ++ during)).session.turn = some { task, frames := rest, values := last } →
                calls.length = 2) := by
  intro c
  have orderly := Chronicle.orderly_course (c := { session := s }) fresh.orderly occasions
  have consults := (Chronicle.Consults.start fresh attached).course fresh.orderly occasions
  refine ⟨?_, consults.perm, ?_⟩
  · have told := Chronicle.trace_course fresh.orderly Occurrence.isAppeal_of_isConsulted occasions
    simp only [Milestone.shown_consulted, ← List.flatMap_assoc, ← List.filterMap_eq_flatMap_toList] at told
    exact told
  · intro o u operation e met entered v
    refine ⟨enters_opened entered, fun before during after => ⟨Chronicle.calls_silent _ entered, fun given => ?_⟩⟩
    have here : v.behavior ≠ .absent := by
      have same : v.behavior = u.behavior := congrArg Outline.behavior (u.outline_opened operation)
      have met : u.behavior = c.session.behavior := congrArg Outline.behavior (meets_occur orderly met).calm.outline
      rw [same, met]
      exact consults.attached
    have opened := Chronicle.opening_given entered given
    have follower : Milestone.follower? (.operate u operation) = v.follower? e := by
      rw [Milestone.follower?, entered]
      rfl
    rcases follower?_cases here given with ⟨⟨fault, raised⟩, none⟩ | ⟨f, left, target, answer⟩
    · refine ⟨Or.inl ?_, ?_⟩
      · rw [Chronicle.calls, opened, follower, none]
        rfl
      · intro id task rest first last answered
        cases raised.symm.trans answered
    · rw [← follower] at left
      obtain ⟨follows, -, tracked, -⟩ := Chronicle.Follows.start consults.dated orderly met left
      have later := orderly.occur o
      have calls := (follows.course later (before ++ during ++ after)).calls entered given left
      rw [target] at calls
      refine ⟨?_, ?_⟩
      · rcases calls with ⟨_, once⟩ | ⟨id, w, answered, first, last, twice⟩
        · exact Or.inl once
        · exact Or.inr ⟨id, w, answer.trans (by rw [answered]), first, last, twice⟩
      · intro id task rest first last answered succeeded called returned
        rcases calls with ⟨none, _⟩ | ⟨_, w, _, _, _, twice⟩
        · have waited : f.answer = some id := Except.ok.inj (answer.symm.trans answered)
          exact absurd none (follows.called later tracked called returned waited succeeded)
        · rw [twice]
          rfl

/-- A machine whose behaviour of transitions ends later. The transition into the second state has a
configuration. -/
private def obliging : Session where
  store := { cells := #[
    .map [(.text "initial", .text "A"), (.text "states", .tuple [.ref 1, .ref 3])],
    .map [(.text "name", .text "A"), (.text "events", .tuple [.ref 2]), (.text "do", .text "wait")],
    .map [(.text "on", .text "go"), (.text "goto", .text "B"), (.text "do", .text "leave")],
    .map [(.text "name", .text "B"), (.text "do", .text "arrive")]] }
  behavior := .canned .done .defer
  machine := some {}

private def obliged : Chronicle :=
  ({ session := obliging } : Chronicle).course [.event (.load (.ref 0)), .event (.setRunning true)]

private def leaving : Milestone :=
  .operate obliged.session (.fire (.text "go"))

/-- A drain after the machine has gone on to the second state, up to its first turn. -/
private def draining : List Occasion :=
  .event .drain :: List.replicate 4 (.event .step)

/-- The behaviour of the transition ends, and then the drain returns. -/
private def ending : List Occasion :=
  [.event .step, .event .step, .event (.answer 0 (.ok []))] ++ List.replicate 8 (.event .step)

private def gone : Chronicle :=
  obliged.occur (.event (.fire (.text "go")))

set_option maxRecDepth 4000 in
theorem obliging_consulted : obliging.Fresh ∧ obliging.behavior ≠ .absent ∧
    obliged.session.met? (.event (.fire (.text "go"))) = some leaving ∧
      ((gone.course draining).calls leaving).length = 1 ∧ ((gone.course (draining ++ ending)).calls leaving).length = 2 := by
  have fresh : obliging.Fresh := ⟨rfl, rfl, rfl, rfl, rfl⟩
  have attached : obliging.behavior ≠ .absent := nofun
  have met : obliged.session.met? (.event (.fire (.text "go"))) = some leaving := rfl
  obtain ⟨-, -, each⟩ := behavior_consulted fresh attached [.event (.load (.ref 0)), .event (.setRunning true)]
  have entered : obliged.session.entrance? (.fire (.text "go")) =
      some { target := .ref 3, config := .text "leave", event := .text "go" } := rfl
  have later := (each _ _ _ _ met entered).2
  have answer : ((obliged.session.opened (.fire (.text "go"))).executeTransition (.text "leave")).2 = .ok (some 1) := rfl
  have open_ : (gone.course (draining ++ [] ++ [])).session.schedule.outcome? 1 = none := rfl
  have ended : (gone.course (draining ++ ending ++ [])).session.schedule.outcome? 1 = some (.ok []) := rfl
  refine ⟨fresh, attached, met, ?_, ?_⟩
  · rcases ((later draining [] []).2 rfl).1 with once | ⟨id, w, answered, _, ⟨values, ok⟩, _⟩
    · exact congrArg List.length once
    · rw [Option.some.inj (Except.ok.inj (answered.symm.trans answer))] at ok
      exact nomatch open_.symm.trans ok
  · have called : (gone.course draining).session.turn = some { task := 3, frames := [.drain], values := [] } := rfl
    have returned : (gone.course (draining ++ ending)).session.turn = some { task := 3, frames := [], values := [] } := rfl
    exact ((later draining ending []).2 rfl).2 1 3 [] [] [] answer ⟨[], ended⟩ called returned

end Session

end Interaction
