import Interaction.Proofs.Run

/-! Joins that fail with the first of their members. Such a join is still to be told of every member
that has not ended well, so once it has ended well itself, all of its members have. -/

namespace Interaction

namespace Schedule

variable {φ : Type} {s t : Schedule φ}

/-- Whether a promise is settled with values. -/
def Succeeded (s : Schedule φ) (id : Nat) : Prop :=
  ∃ values, s.outcome? id = some (.ok values)

structure Strict (s : Schedule φ) : Prop where
  told : ∀ join members, s.role? join = some (.join members false) → s.outcome? join = none →
    ∀ member ∈ members, (.member join, member) ∈ s.notices ∨ s.Succeeded member
  gathered : ∀ join members, s.role? join = some (.join members false) → s.Succeeded join →
    ∀ member ∈ members, s.Succeeded member

namespace Strict

/-- It is enough to look at what a join is told meanwhile, and at the joins that are settled. -/
theorem after (strict : s.Strict) (kept : ∀ {id outcome}, s.outcome? id = some outcome → t.outcome? id = some outcome)
    (roles : ∀ {join members}, t.role? join = some (.join members false) → s.role? join = some (.join members false))
    (told : ∀ {join members member}, s.role? join = some (.join members false) → t.outcome? join = none →
      (.member join, member) ∈ s.notices → (.member join, member) ∈ t.notices ∨ t.Succeeded member)
    (ended : ∀ {join members}, s.role? join = some (.join members false) → s.outcome? join = none → t.Succeeded join →
      ∀ member ∈ members, t.Succeeded member) : t.Strict where
  told join members isJoin open_ member among := by
    have before : s.outcome? join = none := by
      cases settled : s.outcome? join with
      | none => rfl
      | some outcome => cases open_.symm.trans (kept settled)
    rcases strict.told join members (roles isJoin) before member among with noticed | ⟨values, settled⟩
    · exact told (roles isJoin) open_ noticed
    · exact Or.inr ⟨values, kept settled⟩
  gathered join members isJoin succeeded member among := by
    cases settled : s.outcome? join with
    | none => exact ended (roles isJoin) settled succeeded member among
    | some outcome =>
      obtain ⟨values, later⟩ := succeeded
      cases later.symm.trans (kept settled)
      obtain ⟨given, before⟩ := strict.gathered join members (roles isJoin) ⟨values, settled⟩ member among
      exact ⟨given, kept before⟩

/-- What is kept while no join is settled. -/
theorem same (strict : s.Strict) (outcomes : ∀ id, t.outcome? id = s.outcome? id) (roles : ∀ id, t.role? id = s.role? id)
    (told : ∀ {join member}, (.member join, member) ∈ s.notices → (.member join, member) ∈ t.notices) : t.Strict := by
  refine strict.after (fun settled => (outcomes _).trans settled) (fun isJoin => (roles _).symm.trans isJoin)
    (fun _ _ noticed => Or.inl (told noticed)) ?_
  rintro join members _ open_ ⟨values, settled⟩
  cases (open_.symm.trans (outcomes join).symm).trans settled

theorem empty : ({} : Schedule φ).Strict :=
  ⟨fun _ _ isJoin => by simp [role?, origin?] at isJoin, fun _ _ isJoin => by simp [role?, origin?] at isJoin⟩

theorem add (strict : s.Strict) (p : Promise φ) (alone : p.waiters = []) (single : p.origin.role.members? = none) :
    (s.add p).1.Strict := by
  have older {join : Nat} {members : List Nat} (isJoin : (s.add p).1.role? join = some (.join members false)) :
      join ≠ s.promises.size := by
    rintro rfl
    rw [role?, origin?_add, if_pos rfl, Option.map_some] at isJoin
    rw [Option.some.inj isJoin] at single
    cases single
  have outcomes {id : Nat} (old : id ≠ s.promises.size) : (s.add p).1.outcome? id = s.outcome? id := by
    rw [outcome?_add, if_neg old]
  have roles {id : Nat} (old : id ≠ s.promises.size) : (s.add p).1.role? id = s.role? id :=
    role?_congr (by rw [origin?_add, if_neg old])
  refine strict.after (fun settled => ?_) (fun isJoin => (roles (older isJoin)).symm.trans isJoin) ?_ ?_
  · rw [outcomes (Nat.ne_of_lt (outcome?_inside (by simp [settled]))), settled]
  · intro join members member _ _ noticed
    rw [notices_add s p alone]
    exact Or.inl noticed
  · rintro join members isJoin open_ ⟨values, settled⟩
    obtain ⟨origin, held, _⟩ := Option.map_eq_some_iff.mp isJoin
    cases (open_.symm.trans (outcomes (Nat.ne_of_lt (origin?_inside held))).symm).trans settled

theorem spawn (strict : s.Strict) (frames : List φ) : (s.spawn frames).1.Strict :=
  (strict.add { origin := .task frames } rfl rfl).same (fun _ => rfl) (fun _ => rfl) fun noticed => by
    rw [Schedule.spawn, notices_run]
    exact noticed

theorem watch (strict : s.Strict) (id : Nat) (waiter : Waiter) : (s.watch id waiter).Strict :=
  strict.same (fun _ => outcome?_watch ..) (fun _ => role?_congr (origin?_watch ..)) fun noticed =>
    mem_notices_watch.mpr (Or.inl noticed)

theorem join (strict : s.Strict) {members : List Nat} (inside : ∀ member ∈ members, member < s.promises.size) (patient : Bool) :
    (s.join members patient).1.Strict := by
  by_cases empty : members = []
  · subst empty
    exact strict.add _ rfl rfl
  have joining := s.joining empty inside patient
  constructor
  case told =>
    intro id others isJoin open_ member among
    obtain ⟨origin, held, role⟩ := Option.map_eq_some_iff.mp isJoin
    rw [joining.origin] at held
    rw [joining.outcome] at open_
    split at held
    next new =>
      subst new
      cases held
      cases role
      exact Or.inl (joining.noticed.mem_iff.mpr (List.mem_append_left _ (List.mem_map_of_mem among)))
    next old =>
      rw [if_neg old] at open_
      have before : s.role? id = some (.join others false) := Option.map_eq_some_iff.mpr ⟨origin, held, role⟩
      rcases strict.told id others before open_ member among with waits | ⟨values, settled⟩
      · exact Or.inl (joining.noticed.mem_iff.mpr (List.mem_append_right _ waits))
      · exact Or.inr ⟨values, (joining.kept (by simp [settled])).trans settled⟩
  case gathered =>
    rintro id others isJoin ⟨values, settled⟩ member among
    obtain ⟨origin, held, role⟩ := Option.map_eq_some_iff.mp isJoin
    rw [joining.origin] at held
    rw [joining.outcome] at settled
    split at held
    next new =>
      rw [if_pos new] at settled
      cases settled
    next old =>
      rw [if_neg old] at settled
      have before : s.role? id = some (.join others false) := Option.map_eq_some_iff.mpr ⟨origin, held, role⟩
      obtain ⟨given, ended⟩ := strict.gathered id others before ⟨values, settled⟩ member among
      exact ⟨given, (joining.kept (by simp [ended])).trans ended⟩

/-- Settling anything but a join settles no join. -/
theorem settle (strict : s.Strict) {id : Nat} (single : s.members? id = none) (outcome : Outcome) :
    (s.settle id outcome).Strict := by
  refine strict.after (fun settled => ?_) (fun isJoin => (role?_congr (origin?_settle ..)).symm.trans isJoin)
    (fun _ _ noticed => Or.inl ((notices_settle ..).mem_iff.mpr noticed)) ?_
  · rw [outcome?_settle_kept s id outcome (by simp [settled]), settled]
  · rintro join members isJoin open_ ⟨values, settled⟩
    rcases outcome?_settle s id outcome join with same | ⟨rfl, -⟩
    · cases (open_.symm.trans same.symm).trans settled
    · cases single.symm.trans (members?_role isJoin)

theorem suspend (strict : s.Strict) {task : Nat} (there : ∃ frames, s.origin? task = some (.task frames)) (frames : List φ) :
    (s.suspend task frames).Strict := by
  refine strict.same (fun _ => outcome?_suspend ..) (fun id => ?_) fun noticed => by rwa [notices_suspend]
  obtain ⟨old, held⟩ := there
  by_cases own : task = id
  · subst own
    simp [role?, origin?_suspend, held, Origin.role]
  · simp [role?, origin?_suspend, own]

/-- The next job is taken, and it tells no join. -/
theorem pop (strict : s.Strict) {job : Job} {queue : List Job} (next : s.queue = job :: queue)
    (other : ∀ join member, job ≠ .tell (.member join) member) : ({ s with queue } : Schedule φ).Strict := by
  refine strict.same (fun _ => rfl) (fun _ => rfl) fun {join member} noticed => ?_
  rw [notices_next next] at noticed
  refine (List.mem_append.mp noticed).resolve_left fun own => ?_
  cases job with
  | run task => cases own
  | tell waiter id =>
    cases List.mem_singleton.mp own
    exact other join member rfl

theorem report_failed {join member : Nat} {members : List Nat} {left : Nat} {fault : Fault}
    (held : s.origin? join = some (.join members left false)) (failed : s.outcome? member = some (.error fault)) :
    s.report join member = (s.countOff join members left false).settle join (.error fault) := by
  have origin : (s.promises[join]?).map Promise.origin = some (.join members left false) := held
  have after : (s.countOff join members left false).outcome? member = some (.error fault) :=
    (outcome?_countOff ..).trans failed
  unfold countOff at after ⊢
  simp only [report, origin, after]

/-- A join that is told of a failed member fails with it. -/
theorem outcome?_report_failed {join member : Nat} {members : List Nat} {left : Nat} {fault : Fault}
    (held : s.origin? join = some (.join members left false)) (open_ : s.outcome? join = none)
    (failed : s.outcome? member = some (.error fault)) : (s.report join member).outcome? join = some (.error fault) := by
  rw [report_failed held failed]
  refine outcome?_settle_self ⟨?_, ?_⟩ _
  · rw [size_countOff]
    exact origin?_inside held
  · rw [outcome?_countOff, open_]

/-- A join ends well with the last member that it counts, if that has ended well. -/
theorem report_succeeded {join member : Nat} {members : List Nat} {left : Nat} (held : s.origin? join = some (.join members left false))
    (open_ : s.outcome? join = none) (told : s.outcome? member ≠ none) (succeeded : (s.report join member).Succeeded join) :
    left = 1 ∧ s.Succeeded member := by
  obtain ⟨values, settled⟩ := succeeded
  obtain ⟨outcome, ended⟩ := Option.ne_none_iff_exists'.mp told
  cases outcome with
  | error fault => cases (outcome?_report_failed held open_ ended).symm.trans settled
  | ok given =>
    refine ⟨?_, given, ended⟩
    rcases report_cases s join member with ⟨other, _⟩ | ⟨_, _, _, again, same⟩
    · exact absurd held (other _ _ _)
    cases held.symm.trans again
    rcases same with same | ⟨fault, _, failed, _⟩ | ⟨last, _⟩
    · rw [same, outcome?_countOff, open_] at settled
      cases settled
    · cases ended.symm.trans failed
    · exact last

/-- A join is told of a member. It ends well only if that has, and if it is to be told of no other. -/
theorem pop_member (strict : s.Strict) (orderly : s.Orderly none) {join id : Nat} {queue : List Job}
    (next : s.queue = .tell (.member join) id :: queue) : (({ s with queue } : Schedule φ).report join id).Strict := by
  have told : s.outcome? id ≠ none := orderly.told _ id (next ▸ List.mem_cons_self ..)
  have notices := Orderly.notices_pop next
  have outcomes (other : Nat) : ({ s with queue } : Schedule φ).outcome? other = s.outcome? other := rfl
  have origins (other : Nat) : ({ s with queue } : Schedule φ).origin? other = s.origin? other := rfl
  generalize ({ s with queue } : Schedule φ) = u at *
  have kept {other : Nat} {given : Outcome} (settled : s.outcome? other = some given) :
      (u.report join id).outcome? other = some given := by
    rw [outcome?_report u join id (by simp [outcomes, settled]), outcomes, settled]
  have strictly {other : Nat} {members : List Nat} (isJoin : s.role? other = some (.join members false)) :
      ∃ left, s.origin? other = some (.join members left false) := by
    obtain ⟨origin, held, role⟩ := Option.map_eq_some_iff.mp isJoin
    cases origin <;> cases role
    exact ⟨_, held⟩
  refine strict.after kept (fun isJoin => ?_) ?_ ?_
  · rw [role?_report, role?_congr (origins _)] at isJoin
    exact isJoin
  · intro other members member isJoin open_ noticed
    rw [notices] at noticed
    rcases List.mem_cons.mp noticed with own | later
    · cases own
      obtain ⟨outcome, ended⟩ := Option.ne_none_iff_exists'.mp told
      cases outcome with
      | ok values => exact Or.inr ⟨values, kept ended⟩
      | error fault =>
        obtain ⟨left, held⟩ := strictly isJoin
        cases before : s.outcome? join with
        | none =>
          have failed := outcome?_report_failed ((origins join).trans held) ((outcomes join).trans before) ((outcomes id).trans ended)
          cases open_.symm.trans failed
        | some outcome => cases open_.symm.trans (kept before)
    · exact Or.inl ((notices_report ..).mem_iff.mpr later)
  · intro other members isJoin open_ succeeded member among
    obtain ⟨left, held⟩ := strictly isJoin
    have own : join = other := by
      refine Classical.byContradiction fun different => ?_
      obtain ⟨values, settled⟩ := succeeded
      rw [outcome?_report u join id fun same => absurd same different, outcomes, open_] at settled
      cases settled
    subst own
    obtain ⟨rfl, given, ended⟩ :=
      report_succeeded ((origins join).trans held) ((outcomes join).trans open_) (by rwa [outcomes]) succeeded
    rw [outcomes] at ended
    -- The join counted this member only, so all others have ended well before.
    rcases strict.told join members isJoin open_ member among with noticed | ⟨others, before⟩
    · obtain ⟨count, _⟩ := orderly.counted join members 1 false held ⟨origin?_inside held, open_⟩
      rw [notices, List.countP_cons_of_pos (by simp [Waiter.isFor])] at count
      rw [notices] at noticed
      rcases List.mem_cons.mp noticed with same | later
      · cases same
        exact ⟨given, kept ended⟩
      · have none : u.notices.countP (·.1.isFor join) = 0 := by omega
        exact absurd (by simp [Waiter.isFor]) (List.countP_eq_zero.mp none _ later)
    · exact ⟨others, kept before⟩

end Strict
end Schedule

namespace Session

variable {s : Session}

theorem Grows.strict {t : Session} (grows : s.Grows t) (strict : s.schedule.Strict) : t.schedule.Strict := by
  induction grows with
  | aside schedule => rwa [schedule]
  | spawn s frames => exact strict.spawn frames
  | settled s outcome => exact strict.add _ rfl rfl
  | defer s => exact strict.add _ rfl rfl
  | ask s => exact strict.add _ rfl rfl
  | join s inside patient => exact strict.join inside patient
  | track s launched name => exact strict.watch _ _
  | trans _ _ first last => exact last (first strict)

theorem strict_resume {task : Nat} (there : ∃ frames, s.schedule.origin? task = some (.task frames)) (strict : s.schedule.Strict)
    (frames : List Frame) (outcome : Outcome) : (s.resume task frames outcome).schedule.Strict := by
  obtain ⟨_, held⟩ := there
  cases outcome with
  | ok values => exact strict
  | error fault => exact strict.settle (Schedule.members?_origin held) _

theorem strict_move {task : Nat} (there : ∃ frames, s.schedule.origin? task = some (.task frames)) (strict : s.schedule.Strict)
    (rest : List Frame) (move : Move) : (s.move task rest move).schedule.Strict := by
  cases move with
  | go frames values => exact strict
  | fail fault =>
    obtain ⟨_, held⟩ := there
    exact strict.settle (Schedule.members?_origin held) _
  | yield frames =>
    have suspended := strict.suspend there (frames ++ rest)
    refine suspended.same (fun _ => rfl) (fun _ => rfl) fun noticed => ?_
    rwa [Session.move, Schedule.yield, Schedule.notices_run]
  | await promise frames =>
    simp only [move]
    split
    · exact strict_resume there strict _ _
    · exact (strict.suspend there _).watch _ _

theorem strict_doJob (orderly : s.Orderly none) (strict : s.schedule.Strict) {job : Job} {queue : List Job}
    (next : s.schedule.queue = job :: queue) : ((s.popped queue).doJob job).schedule.Strict := by
  cases job with
  | run task => exact strict.pop next (by simp)
  | tell waiter id =>
    cases waiter with
    | resume task =>
      have noticed : (.resume task, id) ∈ s.schedule.notices := Schedule.mem_notices.mpr (Or.inl (next ▸ List.mem_cons_self ..))
      have there := (orderly.schedule.alive task (Schedule.mem_wakes.mpr (Or.inr ⟨id, noticed⟩))).2
      exact strict_resume (s := s.popped queue) there (strict.pop next (by simp)) _ _
    | member join => exact strict.pop_member orderly.schedule next
    | report name => exact (Grows.reportBehavior (s.popped queue) name id).strict (strict.pop next (by simp))

/-- Whatever happens, every join that fails with the first of its members goes by all of them. -/
theorem strict_happen (orderly : s.Orderly s.running) (strict : s.schedule.Strict) (e : Event) :
    (s.happen e).schedule.Strict := by
  by_cases outside : e = .step
  · subst outside
    cases stepped : s.step with
    | none => simpa only [happen, stepped, Option.getD_none] using strict
    | some t =>
      simp only [happen, stepped, Option.getD_some]
      rcases step_cases stepped with ⟨task, values, turn, rfl⟩ | ⟨task, frame, rest, values, turn, rfl⟩ |
        ⟨job, queue, turn, next, rfl⟩ <;> rw [running, turn] at orderly
      · obtain ⟨_, _, held⟩ := orderly.schedule.alive task (by simp)
        exact strict.settle (Schedule.members?_origin held) _
      · have taken := Grows.takeStep s frame values orderly.tracked
        exact strict_move ((orderly.grows taken).schedule.alive task (by simp)).2 (taken.strict strict) rest _
      · exact strict_doJob orderly strict next
  rcases orderly.outside_cases outside with grows | ⟨id, outcome, asked, held, _, same⟩ | ⟨frames, _, same⟩
  · exact grows.strict strict
  · rw [same]
    exact strict.settle (Schedule.members?_origin held) _
  · rw [same]
    exact strict.add _ rfl rfl

theorem Reachable.strict (reachable : s.Reachable) : s.schedule.Strict := by
  obtain ⟨fresh, events, start, rfl⟩ := reachable
  refine (start.orderly.along events ?_ fun t e orderly strict => strict_happen orderly strict e).2
  rw [start.schedule]
  exact .empty

end Session

namespace Schedule

variable {φ : Type} {s t : Schedule φ}

/-- Whether every open join still counts some member. -/
def Expectant (s : Schedule φ) : Prop :=
  ∀ join members left patient, s.origin? join = some (.join members left patient) → s.outcome? join = none → 0 < left

namespace Expectant

theorem after (expectant : s.Expectant) (opens : ∀ {id}, t.outcome? id = none → s.outcome? id = none)
    (joins : ∀ {join members left patient}, t.origin? join = some (.join members left patient) →
      t.outcome? join = none → s.origin? join = some (.join members left patient) ∨ 0 < left) : t.Expectant := by
  intro join members left patient held open_
  rcases joins held open_ with old | counts
  · exact expectant join members left patient old (opens open_)
  · exact counts

theorem same (expectant : s.Expectant) (outcomes : ∀ id, t.outcome? id = s.outcome? id) (origins : ∀ id, t.origin? id = s.origin? id) :
    t.Expectant :=
  expectant.after (fun open_ => (outcomes _).symm.trans open_) fun held _ => Or.inl ((origins _).symm.trans held)

theorem empty : ({} : Schedule φ).Expectant :=
  fun _ _ _ _ held => by simp [origin?] at held

theorem add (expectant : s.Expectant) (p : Promise φ) (counts : ∀ members left patient, p.origin = .join members left patient → 0 < left) :
    (s.add p).1.Expectant := by
  intro join members left patient held open_
  rw [origin?_add] at held
  rw [outcome?_add] at open_
  split at held
  next => exact counts _ _ _ (Option.some.inj held)
  next other =>
    rw [if_neg other] at open_
    exact expectant join members left patient held open_

theorem watchAll (expectant : s.Expectant) (ids : List Nat) (waiter : Waiter) : (s.watchAll ids waiter).Expectant :=
  expectant.same (outcome?_watchAll s ids waiter) (origin?_watchAll s ids waiter)

theorem join (expectant : s.Expectant) (members : List Nat) (patient : Bool) : (s.join members patient).1.Expectant := by
  by_cases empty : members = []
  · subst empty
    exact expectant.add _ fun _ _ _ isJoin => by cases isJoin
  · rw [join_members s empty]
    refine (expectant.add _ ?_).watchAll members _
    rintro _ _ _ same
    cases same
    exact List.length_pos_of_ne_nil empty

theorem open_before {id : Nat} {outcome : Outcome} {other : Nat} (open_ : (s.settle id outcome).outcome? other = none) :
    s.outcome? other = none := by
  apply Classical.byContradiction
  intro before
  exact before ((outcome?_settle_kept s id outcome before).symm.trans open_)

theorem settle (expectant : s.Expectant) (id : Nat) (outcome : Outcome) : (s.settle id outcome).Expectant :=
  expectant.after open_before fun held _ => Or.inl ((origin?_settle ..).symm.trans held)

theorem suspend (expectant : s.Expectant) {task : Nat} (there : ∃ frames, s.origin? task = some (.task frames)) (frames : List φ) :
    (s.suspend task frames).Expectant := by
  refine expectant.after (fun open_ => (outcome?_suspend ..).symm.trans open_) fun {join _ _ _} held _ => Or.inl ?_
  obtain ⟨old, own⟩ := there
  rw [origin?_suspend] at held
  split at held
  next same =>
    subst same
    simp [own] at held
  next => exact held

/-- A join that is not settled when it is told of a member counts another one. -/
theorem report (expectant : s.Expectant) (join member : Nat) : (s.report join member).Expectant := by
  by_cases isJoin : ∃ members left patient, s.origin? join = some (.join members left patient)
  · obtain ⟨members, left, patient, held⟩ := isJoin
    have origin : (s.promises[join]?).map Promise.origin = some (.join members left patient) := held
    have counted : left ≠ 1 → (s.countOff join members left patient).Expectant := by
      intro more
      refine expectant.after (fun open_ => (outcome?_countOff ..).symm.trans open_) fun {other _ _ _} own open_ => ?_
      rw [origin?_countOff held] at own
      split at own
      next same =>
        subst same
        cases own
        have := expectant join members left patient held ((outcome?_countOff ..).symm.trans open_)
        exact Or.inr (by omega)
      next => exact Or.inl own
    have settled (outcome : Outcome) : ((s.countOff join members left patient).settle join outcome).Expectant := by
      refine expectant.after (fun open_ => (outcome?_countOff ..).symm.trans (open_before open_))
        fun {other _ _ _} own open_ => Or.inl ?_
      rw [origin?_settle, origin?_countOff held] at own
      split at own
      next same =>
        subst same
        rw [outcome?_settle_self ⟨?_, open_before open_⟩] at open_
        · cases open_
        · rw [size_countOff]
          exact origin?_inside held
      next => exact own
    unfold Schedule.report
    simp only [origin]
    split
    · exact settled _
    · split
      next => exact settled _
      next more => exact counted more
  · have none : ∀ members left patient, s.origin? join ≠ some (.join members left patient) := by simpa using isJoin
    rcases report_cases s join member with ⟨_, same⟩ | ⟨members, left, patient, held, _⟩
    · rwa [same]
    · exact absurd held (none _ _ _)

end Expectant

/-- An open join is still to be told of a member. -/
theorem Expectant.noticed (expectant : s.Expectant) {running : Option Nat} (orderly : s.Orderly running) {join : Nat}
    {members : List Nat} {patient : Bool} (isJoin : s.role? join = some (.join members patient)) (open_ : s.outcome? join = none) :
    ∃ member ∈ members, (.member join, member) ∈ s.notices := by
  obtain ⟨origin, held, role⟩ := Option.map_eq_some_iff.mp isJoin
  cases origin <;> cases role
  next left =>
    obtain ⟨count, _⟩ := orderly.counted join members left patient held ⟨origin?_inside held, open_⟩
    have counts := expectant join members left patient held open_
    rw [← count, List.countP_pos_iff] at counts
    obtain ⟨⟨waiter, member⟩, noticed, own⟩ := counts
    cases waiter with
    | member other =>
      obtain rfl : other = join := by simpa [Waiter.isFor] using own
      obtain ⟨_, _, _, again, among⟩ := orderly.joined other member noticed
      cases held.symm.trans again
      exact ⟨member, among, noticed⟩
    | _ => simp [Waiter.isFor] at own

end Schedule

namespace Session

variable {s t : Session}

theorem Grows.expectant (grows : s.Grows t) (expectant : s.schedule.Expectant) : t.schedule.Expectant := by
  induction grows with
  | aside schedule => rwa [schedule]
  | spawn s frames =>
    exact Schedule.Expectant.same (expectant.add { origin := .task frames } fun _ _ _ isJoin => by cases isJoin) (fun _ => rfl) fun _ => rfl
  | settled s outcome => exact expectant.add _ fun _ _ _ isJoin => by cases isJoin
  | defer s => exact expectant.add _ fun _ _ _ isJoin => by cases isJoin
  | ask s => exact expectant.add _ fun _ _ _ isJoin => by cases isJoin
  | join s inside patient => exact expectant.join _ patient
  | track s launched name => exact expectant.same (Schedule.outcome?_watch _ _ _) (Schedule.origin?_watch _ _ _)
  | trans _ _ first last => exact last (first expectant)

theorem expectant_resume (expectant : s.schedule.Expectant) (task : Nat) (frames : List Frame) (outcome : Outcome) :
    (s.resume task frames outcome).schedule.Expectant := by
  cases outcome with
  | ok values => exact expectant
  | error fault => exact expectant.settle task _

theorem expectant_move {task : Nat} (there : ∃ frames, s.schedule.origin? task = some (.task frames)) (expectant : s.schedule.Expectant)
    (rest : List Frame) (move : Move) : (s.move task rest move).schedule.Expectant := by
  cases move with
  | go frames values => exact expectant
  | fail fault => exact expectant.settle task _
  | yield frames => exact (expectant.suspend there (frames ++ rest)).same (fun _ => rfl) fun _ => rfl
  | await promise frames =>
    simp only [move]
    split
    · exact expectant_resume expectant task _ _
    · exact (expectant.suspend there _).same (Schedule.outcome?_watch _ _ _) (Schedule.origin?_watch _ _ _)

/-- Whatever happens, every open join still counts some member. -/
theorem expectant_happen (orderly : s.Orderly s.running) (expectant : s.schedule.Expectant) (e : Event) :
    (s.happen e).schedule.Expectant := by
  by_cases outside : e = .step
  · subst outside
    cases stepped : s.step with
    | none => simpa only [happen, stepped, Option.getD_none] using expectant
    | some t =>
      simp only [happen, stepped, Option.getD_some]
      rcases step_cases stepped with ⟨task, values, turn, rfl⟩ | ⟨task, frame, rest, values, turn, rfl⟩ |
        ⟨job, queue, turn, next, rfl⟩
      · exact expectant.settle task _
      · have taken := Grows.takeStep s frame values orderly.tracked
        rw [running, turn] at orderly
        exact expectant_move ((orderly.grows taken).schedule.alive task (by simp)).2 (taken.expectant expectant) rest _
      · have popped : (s.popped queue).schedule.Expectant := expectant.same (fun _ => rfl) fun _ => rfl
        cases job with
        | run task => exact popped
        | tell waiter id =>
          cases waiter with
          | resume task => exact expectant_resume popped task _ _
          | member join => exact popped.report join id
          | report name => exact (Grows.reportBehavior (s.popped queue) name id).expectant popped
  · rcases orderly.outside_cases outside with grows | ⟨id, outcome, _, _, _, same⟩ | ⟨frames, _, same⟩
    · exact grows.expectant expectant
    · rw [same]
      exact expectant.settle id outcome
    · rw [same]
      exact expectant.add _ fun _ _ _ isJoin => by cases isJoin

theorem Reachable.expectant (reachable : s.Reachable) : s.schedule.Expectant := by
  obtain ⟨fresh, events, start, rfl⟩ := reachable
  refine (start.orderly.along events ?_ fun t e orderly expectant => expectant_happen orderly expectant e).2
  rw [start.schedule]
  exact .empty

end Session
end Interaction
