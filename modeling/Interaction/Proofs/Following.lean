import Interaction.Proofs.Threading
import Mathlib.Tactic.IntervalCases

/-! The run of one thread of work. Whatever step is taken, an accepted call gets on with its evaluation
or comes closer to rest; so it comes to rest in the end, and has come to what it evaluates to. -/

namespace Interaction

namespace Session

variable {good : Session → Prop} {s t : Session} {id : Nat} {n : Nat} {line : List Nat} {e : Ending}

/-- No step settles a promise that is left to be settled from outside. -/
theorem outside_open (orderly : s.Orderly s.running) (outside : s.schedule.origin? id = some .outside)
    (open_ : s.schedule.outcome? id = none) : (s.happen .step).schedule.outcome? id = none := by
  have notTask {frames : List Frame} (held : s.schedule.origin? id = some (.task frames)) : False := by
    cases outside.symm.trans held
  cases ended : (s.happen .step).schedule.outcome? id with
  | none => rfl
  | some outcome =>
    cases stepped : s.step with
    | none =>
      rw [happen, stepped] at ended
      cases open_.symm.trans ended
    | some t =>
      rw [happen, stepped, Option.getD_some] at ended
      rcases step_cases stepped with ⟨own, values, turn, rfl⟩ | ⟨own, frame, rest, values, turn, rfl⟩ |
        ⟨job, queue, turn, next, rfl⟩
      · obtain ⟨rfl, -⟩ := settles_own open_ ended
        exact (notTask ((Stands.turn turn).alive orderly).2.choose_spec).elim
      · have extended := (Grows.takeStep s frame values orderly.tracked).extends
        have inside := Schedule.origin?_inside outside
        obtain ⟨rfl, -⟩ := settles_move ((extended.schedule.outcome inside).trans open_) ended
        exact (notTask ((Stands.turn turn).alive orderly).2.choose_spec).elim
      · have first : job ∈ s.schedule.queue := next ▸ List.mem_cons_self ..
        cases job with
        | run task => cases open_.symm.trans ended
        | tell waiter told =>
          have noticed : (waiter, told) ∈ s.schedule.notices := Schedule.mem_notices.mpr (Or.inl first)
          cases waiter with
          | resume task =>
            obtain ⟨rfl, -⟩ := settles_resume (s := s.popped queue) open_ ended
            have woken := Schedule.mem_wakes.mpr (Or.inr ⟨told, noticed⟩)
            exact (notTask (orderly.schedule.alive _ (List.mem_append_right _ woken)).2.choose_spec).elim
          | member join =>
            obtain ⟨rfl, -⟩ := settles_report (s := (s.popped queue).schedule) open_ ended
            obtain ⟨_, _, _, held, _⟩ := orderly.schedule.joined join told noticed
            cases outside.symm.trans held
          | report name =>
            rw [doJob, schedule_reportBehavior] at ended
            cases open_.symm.trans ended

theorem Conveys.values (conveys : s.Conveys good id v) (orderly : s.Orderly s.running) {outcome : Outcome}
    (ended : s.schedule.outcome? id = some outcome) : outcome = .ok [v] := by
  cases conveys with
  | settled same => exact Option.some.inj (ended.symm.trans same)
  | ended stands | item stands => cases ended.symm.trans (stands.alive orderly).1.2

theorem exists_conveys {members : List Nat} {values : List Value} (conveys : List.Forall₂ (s.Conveys good) members values)
    {member : Nat} (among : member ∈ members) : ∃ v, s.Conveys good member v := by
  induction conveys with
  | nil => cases among
  | cons first _ ih =>
    rcases List.mem_cons.mp among with rfl | later
    · exact ⟨_, first⟩
    · exact ih later

theorem gathered_conveys (orderly : s.Orderly s.running) {members : List Nat} {values : List Value}
    (conveys : List.Forall₂ (s.Conveys good) members values) (settled : ∀ member ∈ members, s.schedule.outcome? member ≠ none) :
    s.schedule.gathered members = values := by
  induction conveys with
  | nil => rfl
  | @cons member v others rest first _ ih =>
    obtain ⟨outcome, ended⟩ := Option.ne_none_iff_exists'.mp (settled member (List.mem_cons_self ..))
    have later := ih fun member among => settled member (List.mem_cons_of_mem _ among)
    unfold Schedule.gathered at later ⊢
    rw [List.flatMap_cons, later, ended, first.values orderly ended]
    rfl

/-- Whether the task whose turn it is works for a line, or merely hands on a parameter. -/
def AtWork (good : Session → Prop) (s : Session) (line : List Nat) : Prop :=
  ∀ task frame rest values, s.turn = some { task, frames := frame :: rest, values } → task ∈ line ∨ ∃ v, s.Conveys good task v

theorem AtWork.lull (work : s.AtWork good []) : s.Lull good :=
  fun task frame rest values turn => (work task frame rest values turn).resolve_left List.not_mem_nil

/-- Whether a line gets on with a step, or at least stays where it is while nothing else acts. -/
def GetsOn (good : Session → Prop) (s : Session) (n : Nat) (line : List Nat) (id : Nat) (e : Ending) : Prop :=
  ∃ m more, (m < n ∨ m ≤ n ∧ s.Lull good) ∧ s.Onward good (s.happen .step) line m more id e

section Steps

variable {m k promise member : Nat} {before after : List Nat} {early late : List Value} {frames : List Frame} {values : List Value}
  {first : Ending} (orderly : s.Orderly s.running) (fine : good s) (silent : s.reports = [])

include orderly fine silent

theorem Lull.scene (lull : s.Lull good) : (s.happen .step).scene = s.scene ∧
    (s.happen .step).schedule.promises.size = s.schedule.promises.size := by
  cases stepped : s.step with
  | none => simp only [happen, stepped, Option.getD_none, and_self]
  | some t =>
    obtain ⟨scene, size, -⟩ := lull_step orderly fine silent lull stepped
    rw [happen, stepped, Option.getD_some]
    exact ⟨scene, size⟩

theorem Lull.getsOn (lull : s.Lull good) {more : List Nat} (le : m ≤ n) (comes : (s.happen .step).Comes good m more id e)
    (stays : ∀ task frames supply, (s.happen .step).Stands task frames supply → task ∈ line → task ∈ more) :
    s.GetsOn good n line id e := by
  obtain ⟨scene, size⟩ := lull.scene orderly fine silent
  refine ⟨m, more, Or.inr ⟨le, lull⟩, comes, fun task frames supply stands either => Or.inl ?_⟩
  have inside := (stands.alive (orderly.happen .step)).1.1
  exact stays task frames supply stands (either.resolve_right (by omega))

theorem Lull.getsOn_ended (lull : s.Lull good) {outcome : Outcome} (look : s.scene = t.scene)
    (ended : (s.happen .step).schedule.outcome? id = some outcome) : s.GetsOn good n [id] id ⟨t, some outcome⟩ := by
  have settled : (s.happen .step).Comes good n [] id ⟨t, some outcome⟩ :=
    .settled ((lull.scene orderly fine silent).1.trans look) ended
  apply lull.getsOn orderly fine silent (Nat.le_refl n) settled
  intro task frames supply stands own
  rw [List.mem_singleton.mp own] at stands
  cases ended.symm.trans (stands.alive (orderly.happen .step)).1.2

theorem AtWork.getsOn_settled (work : s.AtWork good []) {outcome : Outcome} (look : s.scene = t.scene)
    (ended : (s.happen .step).schedule.outcome? id = some outcome) : s.GetsOn good n [] id ⟨t, some outcome⟩ := by
  have scene := (work.lull.scene orderly fine silent).1
  exact work.lull.getsOn orderly fine silent (Nat.le_refl n) (.settled (scene.trans look) ended) fun _ _ _ _ among => among

theorem AtWork.getsOn_left (work : s.AtWork good []) (look : s.scene = t.scene) (outside : s.schedule.origin? id = some .outside)
    (open_ : s.schedule.outcome? id = none) : s.GetsOn good n [] id ⟨t, none⟩ := by
  have scene := (work.lull.scene orderly fine silent).1
  have still : (s.happen .step).schedule.origin? id = some .outside :=
    Schedule.role?_outside.mp ((orderly.enlarges .step).origin outside)
  have left : (s.happen .step).Comes good n [] id ⟨t, none⟩ := .left (scene.trans look) still (outside_open orderly outside open_)
  exact work.lull.getsOn orderly fine silent (Nat.le_refl n) left fun _ _ _ _ among => among

theorem AtWork.getsOn_stands (work : s.AtWork good [id]) (sheltered : Sheltered good) (look : s.scene = t.scene)
    (stands : s.Stands id frames (.values values)) (unfolds : Unfolds good n t frames values e) : s.GetsOn good n [id] id e := by
  have known := sheltered.seen look.symm fine
  by_cases mine : ∃ frames values, s.turn = some { task := id, frames, values }
  · obtain ⟨_, _, turn⟩ := mine
    obtain ⟨rfl, supplied⟩ := stands.of_turn orderly turn
    cases supplied
    cases frames with
    | nil =>
      have lull : s.Lull good := fun task frame rest values own => by cases turn.symm.trans own
      have stepped : s.happen .step = s.finish id (.ok values) := by
        simp only [happen, step, turn, Option.getD_some]
      have ended : (s.happen .step).schedule.outcome? id = some (.ok values) :=
        stepped ▸ Schedule.outcome?_settle_self (stands.alive orderly).1 _
      obtain rfl : e = ⟨t, some (.ok values)⟩ := by
        cases unfolds with
        | lost bad => exact absurd known bad
        | done => rfl
      exact lull.getsOn_ended orderly fine silent look ended
    | cons frame rest =>
      obtain ⟨m, less, more, onward⟩ := onward_own orderly sheltered look turn unfolds known
      exact ⟨m, more, Or.inl less, onward⟩
  · have lull : s.Lull good := by
      intro task frame rest values turn
      refine (work task frame rest values turn).resolve_left fun own => ?_
      rw [List.mem_singleton.mp own] at turn
      exact mine ⟨_, _, turn⟩
    rcases stands_happen_on orderly .step stands with ⟨after, later, supplied⟩ | ⟨_, _, same, _⟩ | ⟨_, own⟩
    · obtain rfl : after = .values values := supplied.resolve_right (by rintro ⟨_, _, same, _⟩; cases same)
      have stands := Comes.stands ((lull.scene orderly fine silent).1.trans look) later unfolds
      exact lull.getsOn orderly fine silent (Nat.le_refl n) stands fun _ _ _ _ among => among
    · cases same
    · obtain ⟨⟨_, _, _⟩, turn, rfl⟩ := Option.map_eq_some_iff.mp own
      exact absurd ⟨_, _, turn⟩ mine

theorem AtWork.getsOn_waits (work : s.AtWork good (id :: line)) (stands : s.Stands id frames (.promise promise))
    (awaited : s.Comes good m line promise first) (next : s.AtWork good line → s.GetsOn good m line promise first)
    (later : ∀ given, first.outcome = some (.ok given) → Unfolds good k first.session frames given e)
    (otherwise : (∀ given, first.outcome ≠ some (.ok given)) → e = first) (within : m + k ≤ n) :
    s.GetsOn good n (id :: line) id e := by
  have below : s.AtWork good line := by
    intro task frame rest values turn
    refine (work task frame rest values turn).imp_left fun own => (List.mem_cons.mp own).resolve_left ?_
    rintro rfl
    cases (stands.of_turn orderly turn).2
  rcases stands_happen_on orderly .step stands with ⟨after, still, rfl | ⟨_, values, same, ended, rfl⟩⟩ |
    ⟨_, fault, same, ended, failed⟩ | ⟨_, own⟩
  · obtain ⟨m', more, less, onward⟩ := next below
    have waits := Comes.waits still onward.comes later otherwise (Nat.le_refl _)
    refine ⟨m' + k, id :: more, ?_, waits, fun task frames supply stands either => ?_⟩
    · exact less.imp (fun less => by omega) (And.imp_left fun le => by omega)
    · by_cases own : task = id
      · exact Or.inl (own ▸ List.mem_cons_self ..)
      · have either := either.imp_left fun among => (List.mem_cons.mp among).resolve_left own
        exact (onward.manned task frames supply stands either).imp_left (List.mem_cons_of_mem id)
  · cases same
    obtain ⟨rfl, look, outcome⟩ := awaited.of_settled orderly ended
    have scene := (below.lull.scene orderly fine silent).1
    have stands := Comes.stands (scene.trans look) still (later _ outcome)
    exact below.lull.getsOn orderly fine silent (Nat.le_trans (Nat.le_add_left ..) within) stands fun _ _ _ _ among => among
  · cases same
    obtain ⟨rfl, look, outcome⟩ := awaited.of_settled orderly ended
    obtain rfl := otherwise fun given ok => by cases outcome.symm.trans ok
    obtain ⟨t, _⟩ := e
    cases outcome
    exact below.lull.getsOn_ended orderly fine silent look failed
  · obtain ⟨⟨_, _, _⟩, turn, rfl⟩ := Option.map_eq_some_iff.mp own
    cases (stands.of_turn orderly turn).2

theorem AtWork.getsOn_joins (work : s.AtWork good line) (strict : (s.happen .step).schedule.Strict)
    (join : s.schedule.role? id = some (.join (before ++ member :: after) false)) (open_ : s.schedule.outcome? id = none)
    (early' : List.Forall₂ (s.Conveys good) before early) (late' : List.Forall₂ (s.Conveys good) after late)
    (part : s.Comes good n line member e) (next : s.AtWork good line → s.GetsOn good n line member e) :
    s.GetsOn good n line id (e.andThen fun t given => ⟨t, some (.ok (early ++ given ++ late))⟩) := by
  have inside : id < s.schedule.promises.size := by
    obtain ⟨_, held, _⟩ := Option.map_eq_some_iff.mp join
    exact Schedule.origin?_inside held
  have still := ((orderly.enlarges .step).role inside).trans join
  have notTask {frames : List Frame} {supply : Supply} (stands : s.Stands id frames supply) : False := by
    obtain ⟨_, held⟩ := (stands.alive orderly).2
    cases join.symm.trans (Schedule.role?_origin held)
  cases ended : (s.happen .step).schedule.outcome? id with
  | none =>
    obtain ⟨m, more, less, onward⟩ := next work
    have on (member : Nat) (v : Value) (conveys : s.Conveys good member v) := conveys.happen orderly fine
    exact ⟨m, more, less, .joins still ended (early'.imp on) (late'.imp on) onward.comes, onward.manned⟩
  | some outcome =>
    cases settles_happen orderly .step inside open_ ended with
    | ended turn => exact (notTask (.turn turn)).elim
    | failed _ turn => exact (notTask (.turn turn)).elim
    | told stands => exact (notTask stands).elim
    | outside origin => cases join.symm.trans (Schedule.role?_origin origin)
    | joined isJoin whole =>
      -- The member that takes steps has ended well, like those that hand on their parameters.
      cases isJoin.symm.trans (Schedule.members?_role join)
      obtain ⟨rfl, all⟩ := whole
      have among : member ∈ before ++ member :: after := List.mem_append_right _ (List.mem_cons_self ..)
      obtain ⟨given, succeeded⟩ := strict.gathered id _ still ⟨_, ended⟩ member among
      have known := ((orderly.enlarges .step).settled (all member among)).symm.trans succeeded
      have values : s.schedule.gathered (before ++ member :: after) = early ++ given ++ late := by
        have early := gathered_conveys orderly early' fun other among => all other (List.mem_append_left _ among)
        have late := gathered_conveys orderly late' fun other among =>
          all other (List.mem_append_right _ (List.mem_cons_of_mem member among))
        unfold Schedule.gathered at early late ⊢
        rw [List.flatMap_append, List.flatMap_cons, early, late, known, List.append_assoc]
      obtain ⟨rfl, look, same⟩ := part.of_settled orderly known
      rw [Ending.andThen_ok same]
      exact work.getsOn_settled orderly fine silent look (values ▸ ended)
    | @broken _ other fault isJoin among failed =>
      -- Only the member that takes steps can have failed.
      cases isJoin.symm.trans join
      have beside {members : List Nat} {values : List Value} (conveys : List.Forall₂ (s.Conveys good) members values)
          (among : other ∈ members) : False := by
        obtain ⟨v, conveys⟩ := exists_conveys conveys among
        cases conveys.values orderly failed
      obtain rfl : other = member := by
        rcases List.mem_append.mp among with before | among
        · exact (beside early' before).elim
        · exact (List.mem_cons.mp among).resolve_right (beside late')
      obtain ⟨rfl, look, same⟩ := part.of_settled orderly failed
      obtain ⟨t, _⟩ := e
      cases same
      exact work.getsOn_settled orderly fine silent look ended

theorem Comes.getsOn (comes : s.Comes good n line id e) (sheltered : Sheltered good)
    (strict : (s.happen .step).schedule.Strict) (work : s.AtWork good line) : s.GetsOn good n line id e := by
  induction comes with
  | settled look ended =>
    have later := ((orderly.enlarges .step).settled (by simp [ended])).trans ended
    exact work.getsOn_settled orderly fine silent look later
  | stands look stands unfolds => exact work.getsOn_stands orderly fine silent sheltered look stands unfolds
  | waits stands awaited later otherwise within ih => exact work.getsOn_waits orderly fine silent stands awaited ih later otherwise within
  | joins join open_ early late part ih => exact work.getsOn_joins orderly fine silent strict join open_ early late part ih
  | left look outside open_ => exact work.getsOn_left orderly fine silent look outside open_

end Steps

/-- What has come about once no step is left to be taken. -/
theorem Comes.rest (comes : s.Comes good n line id e) (orderly : s.Orderly s.running) (expectant : s.schedule.Expectant)
    (rests : s.step = none) : e.session.scene = s.scene ∧ e.outcome = s.schedule.outcome? id := by
  obtain ⟨-, idle⟩ := step_eq_none rests
  have still {task : Nat} {frames : List Frame} {values : List Value} (stands : s.Stands task frames (.values values)) : False :=
    stands.not_rests rests
  have open_ {waiter : Waiter} {promise : Nat} (noticed : (waiter, promise) ∈ s.schedule.notices) :
      s.schedule.outcome? promise = none := by
    rcases Schedule.mem_notices.mp noticed with told | waits
    · rw [idle] at told
      cases told
    · exact orderly.schedule.waited _ _ waits
  -- Whatever takes steps or waits would leave something in the turn or in the queue.
  induction comes with
  | settled look ended => exact ⟨look.symm, ended.symm⟩
  | stands _ stands _ => exact (still stands).elim
  | @waits _ _ _ id promise _ _ first e stands _ _ otherwise _ ih =>
    obtain ⟨scene, outcome⟩ := ih
    cases stands with
    | waiting noticed held =>
      rw [open_ noticed] at outcome
      obtain rfl := otherwise fun given ok => by cases outcome.symm.trans ok
      have alive := ((Stands.waiting noticed held).alive orderly).1.2
      exact ⟨scene, outcome.trans alive.symm⟩
  | @joins _ id member _ before after early late e join unsettled first last _ ih =>
    obtain ⟨scene, outcome⟩ := ih
    obtain ⟨other, among, noticed⟩ := expectant.noticed orderly.schedule join unsettled
    have beside {members : List Nat} {values : List Value} (conveys : List.Forall₂ (s.Conveys good) members values)
        (among : other ∈ members) : False := by
      obtain ⟨v, conveys⟩ := exists_conveys conveys among
      cases conveys with
      | settled ended => cases (open_ noticed).symm.trans ended
      | ended stands | item stands => exact still stands
    rcases List.mem_append.mp among with early | among
    · exact (beside first early).elim
    rcases List.mem_cons.mp among with rfl | late
    · rw [open_ noticed] at outcome
      rw [Ending.andThen_other fun given ok => by cases outcome.symm.trans ok]
      exact ⟨scene, outcome.trans unsettled.symm⟩
    · exact (beside last late).elim
  | left look _ unsettled => exact ⟨look.symm, unsettled.symm⟩

theorem Comes.unwatched (comes : s.Comes good n line id e) (orderly : s.Orderly s.running) (sheltered : Sheltered good) (fine : good s)
    {task : Nat} {frame : Frame} {rest : List Frame} {values : List Value}
    (turn : s.turn = some { task, frames := frame :: rest, values }) (among : task ∈ line) :
    (s.passed? task frame values).bind Milestone.vigil? = none := by
  induction comes with
  | settled | left => cases among
  | stands look stands unfolds =>
    obtain rfl := List.mem_singleton.mp among
    obtain ⟨rfl, supplied⟩ := stands.of_turn orderly turn
    exact unfolds.unwatched (sheltered.seen look.symm fine) look (sheltered.secluded fine) _ _
  | waits stands _ _ _ _ ih =>
    rcases List.mem_cons.mp among with rfl | below
    · cases (stands.of_turn orderly turn).2
    · exact ih below
  | joins _ _ _ _ _ ih => exact ih among

/-- A session in which one thread of work is under way. -/
structure Threads (good : Session → Prop) (s : Session) (n : Nat) (line : List Nat) (id : Nat) (e : Ending) : Prop where
  orderly : s.Orderly s.running
  strict : s.schedule.Strict
  expectant : s.schedule.Expectant
  silent : s.reports = []
  comes : s.Comes good n line id e
  manned : ∀ task frames supply, s.Stands task frames supply → task ∈ line ∨ ∃ v, s.Conveys good task v

namespace Threads

theorem work (threads : s.Threads good n line id e) : s.AtWork good line :=
  fun task _ _ _ turn => threads.manned task _ _ (.turn turn)

theorem unwatched (threads : s.Threads good n line id e) (sheltered : Sheltered good) (fine : good s) :
    (s.milestone? .step).bind Milestone.vigil? = none := by
  have orderly := threads.orderly
  unfold milestone?
  dsimp only
  split
  next task frame rest values turn =>
    rcases threads.manned task _ _ (.turn turn) with among | ⟨v, conveys⟩
    · exact threads.comes.unwatched orderly sheltered fine turn among
    · cases conveys with
      | settled ended => cases ended.symm.trans ((Stands.turn turn).alive orderly).1.2
      | ended stands => cases (stands.of_turn orderly turn).1
      | item stands _ =>
        cases (stands.of_turn orderly turn).1
        rfl
  · rfl

/-- With every step the work gets on, or nothing is seen of it and there is less to be done. -/
theorem step (threads : s.Threads good n line id e) (sheltered : Sheltered good) (fine : good s) (stepped : s.step = some t) :
    ∃ m more, (m < n ∨ m ≤ n ∧ t.unrest < s.unrest) ∧ t.Threads good m more id e := by
  have orderly := threads.orderly
  have silent := threads.silent
  have happened : s.happen .step = t := by rw [happen, stepped, Option.getD_some]
  have strict := strict_happen orderly threads.strict .step
  obtain ⟨m, more, less, onward⟩ := threads.comes.getsOn orderly fine silent sheltered strict threads.work
  rw [← happened]
  refine ⟨m, more, less.imp_right (And.imp_right fun lull => ?_), orderly.happen .step, strict,
    expectant_happen orderly threads.expectant .step, silent_happen orderly silent (threads.unwatched sheltered fine),
    onward.comes, fun task frames supply stands => ?_⟩
  · rw [happened]
    exact (lull_step orderly fine silent lull stepped).2.2
  · by_cases inside : task < s.schedule.promises.size
    · have before : ∃ frames supply, s.Stands task frames supply := by
        rcases stands_happen orderly .step inside stands with ⟨_, stood, _⟩ | ⟨_, _, _, _, turn, _⟩
        · exact ⟨_, _, stood⟩
        · exact ⟨_, _, .turn turn⟩
      obtain ⟨_, _, stood⟩ := before
      rcases threads.manned task _ _ stood with among | ⟨v, conveys⟩
      · exact onward.manned task frames supply stands (Or.inl among)
      · exact Or.inr ⟨v, conveys.happen orderly fine⟩
    · exact onward.manned task frames supply stands (Or.inr (Nat.le_of_not_lt inside))

/-- The work comes to rest, and then it has come to what it was to come to. -/
theorem exists_rest (threads : s.Threads good n line id e) (sheltered : Sheltered good)
    (fine : ∀ k, good (s.run (List.replicate k .step))) : ∃ k,
      (s.run (List.replicate k .step)).step = none ∧ (s.run (List.replicate k .step)).scene = e.session.scene ∧
        (s.run (List.replicate k .step)).schedule.outcome? id = e.outcome := by
  -- A step of the line takes one of the steps that its work unfolds to. Any other one leaves these
  -- as they are, but of those there are only so many in between.
  induction n using Nat.strong_induction_on generalizing s line with
  | _ n deeper =>
    generalize bound : s.unrest = u
    induction u using Nat.strong_induction_on generalizing s line with
    | _ u closer =>
      cases stepped : s.step with
      | none =>
        obtain ⟨scene, outcome⟩ := threads.comes.rest threads.orderly threads.expectant stepped
        exact ⟨0, stepped, scene.symm, outcome.symm⟩
      | some t =>
        have happened : s.happen .step = t := by rw [happen, stepped, Option.getD_some]
        have on (k : Nat) : s.run (List.replicate (k + 1) .step) = t.run (List.replicate k .step) := by
          rw [List.replicate_succ, run, List.foldl_cons, happened, run]
        have keeps (k : Nat) : good (t.run (List.replicate k .step)) := on k ▸ fine (k + 1)
        obtain ⟨m, more, less, later⟩ := threads.step sheltered (fine 0) stepped
        obtain ⟨k, rests⟩ : ∃ k, (t.run (List.replicate k .step)).step = none ∧
            (t.run (List.replicate k .step)).scene = e.session.scene ∧
              (t.run (List.replicate k .step)).schedule.outcome? id = e.outcome := by
          rcases less with less | ⟨le, less⟩
          · exact deeper m less later keeps
          · rcases Nat.lt_or_eq_of_le le with less | rfl
            · exact deeper m less later keeps
            · exact closer t.unrest (bound ▸ less) later keeps rfl
        exact ⟨k + 1, on k ▸ rests⟩

end Threads

/-- Whether no work is under way: no task has anything before it, and nothing is to be reported on. -/
structure Vacant (s : Session) : Prop where
  alone : ∀ task frames supply, ¬ s.Stands task frames supply
  silent : s.reports = []

theorem Fresh.vacant {s : Session} (fresh : s.Fresh) : s.Vacant := by
  constructor
  · intro task frames supply stands
    have idle : s.schedule.notices = [] := by rw [fresh.schedule]; rfl
    cases stands with
    | turn turn => simp [fresh.turn] at turn
    | queued queued => simp [fresh.schedule] at queued
    | waiting noticed => simp [idle] at noticed
  · rw [reports, fresh.schedule]
    rfl

/-- If nothing else is under way, an accepted call comes to what it evaluates to from beginning to end:
whatever its services do to the data context, each of them is called with the parameters that the
evaluation gives it and in the same order, the data context ends up the same, and so does the outcome,
which there is unless a service leaves its answer to someone outside. No more than one parameter of
each call is mapped, and nothing changes the configuration meanwhile. -/
theorem calls_threaded {s : Session} (reachable : s.Reachable) (vacant : s.Vacant) (secluded : s.Secluded) {config list : Value}
    {id : Nat} (accepted : (s.callService config list).2 = .ok id) (single : ∀ call, s.store.Leads config call → s.store.Single call)
    (kept : ∀ n, s.store.Keeps ((s.callService config list).1.run (List.replicate n .step)).store config) :
    let last := s.evaluate (Coordinator.depthBound s.store) config ((s.store.items? list).getD [])
    (∃ n, let done := (s.callService config list).1.run (List.replicate n .step)
      done.step = none ∧ done.scene = last.session.scene ∧ done.schedule.outcome? id = last.outcome) ∧
    (s.coordinator.Prompt → last.outcome ≠ none) := by
  have orderly := reachable.orderly
  have grows : s.Grows (s.spawn [.invoke config list]).1 := .spawn s _
  have sheltered : Sheltered (Intact s.store config) := ⟨fun look intact => intact.scene look, Intact.secluded⟩
  obtain ⟨passed, rfl, started⟩ : s.coordinator.checkCall s.store config = .ok () ∧ id = s.schedule.promises.size ∧
      (s.callService config list).1 = (s.spawn [.invoke config list]).1 := by
    unfold callService at accepted ⊢
    split at accepted
    · cases accepted
    next passed =>
      cases accepted
      rw [passed]
      exact ⟨rfl, rfl, rfl⟩
  rw [started] at kept ⊢
  have spawned : (s.spawn [.invoke config list]).1.Orderly (s.spawn [.invoke config list]).1.running := by
    rw [running, grows.extends.turn]
    exact orderly.grows grows
  obtain ⟨n, unfolds⟩ := reaches_invoke single passed (.self config) list s []
  have stands : (s.spawn [.invoke config list]).1.Stands s.schedule.promises.size [.invoke config list] (.values []) :=
    .queued (List.mem_append_right _ (List.mem_singleton_self _)) (s.schedule.origin?_spawn _)
  have threads : (s.spawn [.invoke config list]).1.Threads (Intact s.store config) n [s.schedule.promises.size]
      s.schedule.promises.size (s.evaluate (Coordinator.depthBound s.store) config ((s.store.items? list).getD [])) := by
    refine ⟨spawned, grows.strict reachable.strict, grows.expectant reachable.expectant, ?_, .stands (t := s) rfl stands unfolds, ?_⟩
    · exact ((SameWatch.spawn s _).reports.trans (.of_eq vacant.silent)).eq_nil
    · intro task frames supply stands
      have within := Nat.lt_of_lt_of_eq (stands.alive spawned).1.1 (Schedule.size_spawn ..)
      rcases Nat.lt_or_eq_of_le (Nat.le_of_lt_succ within) with old | rfl
      · exact absurd ((grows.extends.stands old).mp stands) (vacant.alone _ _ _)
      · exact Or.inl (List.mem_singleton_self _)
  refine ⟨threads.exists_rest sheltered fun k => ⟨kept k, ?_⟩, (closes_evaluate ..).prompt⟩
  exact secluded_run spawned secluded k

/-- Counts in the data context, and returns the count. -/
private def countOn : Action := .change fun s r =>
  match s.get r.context (.text "count") with
  | .scalar (.int n) => do
    let s ← s.putEntry r.context (.text "count") (.int (n + 1))
    return (s, .int (n + 1))
  | _ => .error .noParameter

/-- The first count is the parameter of the call, the second one what it is mapped to. That is kept in
the data context, where the call that maps the result finds it. -/
private def counting : Session where
  store := { cells := #[
    .map [(.text "count", .int 1)],
    .map [(.text "name", .text "keep"), (.text "parameters", .ref 2), (.text "parameterMapping", .tuple [.ref 3]),
      (.text "resultMapping", .ref 4)],
    .map [(.text "name", .text "count")],
    .map [(.text "name", .text "count")],
    .map [(.text "name", .text "echo"), (.text "parameters", .tuple [.text "${kept}"])]] }
  coordinator :=
    { context := .ref 0
      services := #[{ nature := { kind := "Service" }, provision := .listed, execution := .wrapped,
                      methods := [{ name := .text "count", label := "count", script := { action := countOn } },
                        { name := .text "keep", label := "keep", script := { action := .put (.text "kept"), turns := some 1 } },
                        { name := .text "echo", label := "echo", script := { action := .echo } }] }]
      registry := [("", 0)] }

private def configured : List Value :=
  [.ref 1, .ref 2, .ref 3, .ref 4, .tuple [.ref 3], .tuple [.text "${kept}"], .text "keep", .text "count", .text "echo",
    .text "${kept}"]

private theorem counting_contains {v w : Value} (contains : counting.store.Contains v w) (among : v ∈ configured) :
    w ∈ configured := by
  induction contains with
  | self => exact among
  | @item items v _ member _ ih =>
    apply ih
    have all : ∀ v ∈ items, v ∈ configured := by
      simp only [configured, List.mem_cons, Value.tuple.injEq, reduceCtorEq, List.not_mem_nil, or_false, false_or] at among
      rcases among with rfl | rfl <;> simp [configured]
    exact all v member
  | @value outer v _ cell held member _ ih =>
    apply ih
    have all : ∀ v ∈ cell.values, v ∈ configured := by
      simp only [configured, List.mem_cons, List.not_mem_nil, or_false] at among
      rcases among with rfl | rfl | rfl | rfl | rfl | rfl | rfl | rfl | rfl | rfl <;> cases held <;>
        simp [counting, Cell.values, configured]
    exact all v member

private theorem counting_keeps (entries : Entries) :
    counting.store.Keeps { counting.store with cells := counting.store.cells.set 0 (.map entries) } (.ref 1) := by
  intro w contains
  have among := counting_contains contains (by simp [configured])
  simp only [configured, List.mem_cons, List.not_mem_nil, or_false] at among
  rcases among with rfl | rfl | rfl | rfl | rfl | rfl | rfl | rfl | rfl | rfl <;> rfl

private theorem counting_single (call : Value) (leads : counting.store.Leads (.ref 1) call) : counting.store.Single call := by
  have finite : counting.store.Finite (.ref 1) := ⟨2, by decide⟩
  have all : ∀ call ∈ counting.store.calls (.ref 1), counting.store.Single call := by decide
  exact all call (finite.mem_calls.mpr leads)

theorem run_rested {s : Session} (rests : s.step = none) (k : Nat) : s.run (List.replicate k .step) = s := by
  have still : s.happen .step = s := by rw [happen, rests, Option.getD_none]
  induction k with
  | zero => rfl
  | succ k ih =>
    rw [List.replicate_succ, run, List.foldl_cons, still]
    exact ih

set_option maxRecDepth 4000 in
private theorem counting_kept (n : Nat) : counting.store.Keeps
    ((counting.callService (.ref 1) .null).1.run (List.replicate n .step)).store (.ref 1) := by
  have along (k : Nat) (within : k ≤ 29) : counting.store.Keeps
      ((counting.callService (.ref 1) .null).1.run (List.replicate k .step)).store (.ref 1) := by
    interval_cases k <;> exact counting_keeps _
  have rests : ((counting.callService (.ref 1) .null).1.run (List.replicate 29 .step)).step = none := rfl
  rcases Nat.le_total n 29 with within | beyond
  · exact along n within
  · obtain ⟨k, rfl⟩ := Nat.exists_eq_add_of_le beyond
    rw [List.replicate_add, run_append, run_rested rests]
    exact along 29 (Nat.le_refl _)

set_option maxRecDepth 4000 in
theorem counting_threaded :
    counting.Reachable ∧ counting.Vacant ∧ counting.Secluded ∧ (counting.callService (.ref 1) .null).2 = .ok 0 ∧
      (∀ call, counting.store.Leads (.ref 1) call → counting.store.Single call) ∧
      (∀ n, counting.store.Keeps ((counting.callService (.ref 1) .null).1.run (List.replicate n .step)).store (.ref 1)) ∧
      ∃ n, let done := (counting.callService (.ref 1) .null).1.run (List.replicate n .step)
        done.step = none ∧ done.store.get (.ref 0) (.text "kept") = .int 3 ∧ done.schedule.outcome? 0 = some (.ok [.int 3]) := by
  have fresh : counting.Fresh := ⟨rfl, rfl, rfl, rfl, rfl⟩
  have reachable : counting.Reachable := ⟨counting, [], fresh, rfl⟩
  have vacant : counting.Vacant := fresh.vacant
  have secluded : counting.Secluded := Or.inl rfl
  have accepted : (counting.callService (.ref 1) .null).2 = .ok 0 := rfl
  obtain ⟨n, rests, scene, outcome⟩ := (calls_threaded reachable vacant secluded accepted counting_single counting_kept).1
  refine ⟨reachable, vacant, secluded, accepted, counting_single, counting_kept, n, rests, ?_, outcome⟩
  exact congrArg (fun look => look.store.get (.ref 0) (.text "kept")) scene

end Session

end Interaction
