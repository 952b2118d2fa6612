import Interaction.Proofs.TransitionOutcomes
import Interaction.Proofs.TransitionWatches

/-! Reports on behaviour. Whatever becomes of the behaviour of a transition is reported once, under
the name of the state that the transition led to, and as soon as those who wait for the behaviour go
on. A failure that is raised at once is not reported as well. -/

namespace Interaction

/-- A report that a session is about to make. -/
structure Report where
  session : Session
  name : Value
  id : Nat

namespace Report

def vigil (r : Report) : Value × Nat :=
  (r.name, r.id)

/-- What is written down of a report, which is nothing unless the behaviour has failed. -/
def record? (r : Report) : Option Record :=
  r.session.failed? r.name r.id

end Report

/-- The report that a session makes on an occasion. -/
def Session.told? (s : Session) : Occasion → Option Report
  | .event e => (s.tells? e).map fun vigil => { session := s, name := vigil.1, id := vigil.2 }
  | _ => none

def Chronicle.vigils (c : Chronicle) : List (Value × Nat) :=
  c.milestones.filterMap Milestone.vigil?

/-- A chronicle, and the reports that have been made. -/
structure Bulletin where
  chronicle : Chronicle
  reports : List Report := []

namespace Bulletin

def session (b : Bulletin) : Session :=
  b.chronicle.session

def occur (b : Bulletin) (o : Occasion) : Bulletin where
  chronicle := b.chronicle.occur o
  reports := b.reports ++ (b.session.told? o).toList

def course (b : Bulletin) (occasions : List Occasion) : Bulletin :=
  occasions.foldl occur b

/-- The reports on one behaviour. -/
def about (b : Bulletin) (id : Nat) : List Report :=
  b.reports.filter fun r => r.id = id

variable {b : Bulletin}

theorem course_append (b : Bulletin) (first last : List Occasion) : b.course (first ++ last) = (b.course first).course last :=
  List.foldl_append

theorem chronicle_course (b : Bulletin) (occasions : List Occasion) :
    (b.course occasions).chronicle = b.chronicle.course occasions := by
  induction occasions generalizing b with
  | nil => rfl
  | cons o rest ih => exact ih (b.occur o)

theorem along (orderly : b.session.Orderly b.session.running) {P : Bulletin → Prop} (first : P b)
    (next : ∀ d o, d.session.Orderly d.session.running → P d → P (d.occur o)) (occasions : List Occasion) :
    (b.course occasions).session.Orderly (b.course occasions).session.running ∧ P (b.course occasions) := by
  induction occasions generalizing b with
  | nil => exact ⟨orderly, first⟩
  | cons o rest ih => exact ih (orderly.occur o) (next b o orderly first)

/-- Whether the vigils of all transitions are accounted for by the reports that have been made and by
those that are due, and the failures by the reports that have been made. -/
structure Kept (b : Bulletin) (before : List Record) : Prop where
  accounted : (b.reports.map Report.vigil ++ b.session.reports).Perm b.chronicle.vigils
  apart : (b.chronicle.vigils.map (·.2)).Nodup
  inside : ∀ vigil ∈ b.chronicle.vigils, vigil.2 < b.session.schedule.promises.size
  tracked : b.session.tracked.Perm (b.session.reports.map (·.2))
  failures : b.session.failures.reverse = before ++ b.reports.filterMap Report.record?
  settled : ∀ r ∈ b.reports, r.session.schedule.outcome? r.id ≠ none ∧
    b.session.schedule.outcome? r.id = r.session.schedule.outcome? r.id

variable {before : List Record}

theorem Kept.start {s : Session} (fresh : s.Fresh) :
    ({ chronicle := { session := s } } : Bulletin).Kept s.failures.reverse := by
  have none : s.reports = [] := by
    rw [Session.reports, fresh.schedule]
    rfl
  have tracked : s.tracked.Perm (s.reports.map (·.2)) := by rw [none, fresh.tracked, List.map_nil]
  exact ⟨.of_eq none, .nil, List.forall_mem_nil _, tracked, (List.append_nil _).symm, List.forall_mem_nil _⟩

theorem vigils_occur (c : Chronicle) (o : Occasion) :
    (c.occur o).vigils = c.vigils ++ ((c.session.met? o).bind Milestone.vigil?).toList :=
  c.filterMap_occur o Milestone.vigil?

theorem Kept.settled_occur (kept : b.Kept before) (orderly : b.session.Orderly b.session.running) (o : Occasion) :
    ∀ r ∈ b.reports, r.session.schedule.outcome? r.id ≠ none ∧
      (b.occur o).session.schedule.outcome? r.id = r.session.schedule.outcome? r.id := by
  intro r member
  obtain ⟨ended, same⟩ := kept.settled r member
  exact ⟨ended, ((Session.occur_keeps orderly o).2.1 r.id (same ▸ ended)).trans same⟩

theorem Kept.silent (kept : b.Kept before) (orderly : b.session.Orderly b.session.running) {o : Occasion}
    (silent : b.session.told? o = none)
    (watches : b.session.Watches (b.occur o).session ((b.session.met? o).bind Milestone.vigil?))
    (new : ∀ vigil, (b.session.met? o).bind Milestone.vigil? = some vigil → b.session.schedule.promises.size ≤ vigil.2 ∧
      vigil.2 < (b.occur o).session.schedule.promises.size) : (b.occur o).Kept before := by
  have made : (b.occur o).reports = b.reports := by rw [occur, silent, Option.toList_none, List.append_nil]
  have vigils := vigils_occur b.chronicle o
  have size := (Session.occur_keeps orderly o).1
  constructor
  case accounted =>
    rw [made, show (b.occur o).chronicle.vigils = _ from vigils]
    refine (watches.reports.append_left _).trans ?_
    rw [← List.append_assoc]
    refine (List.perm_append_comm.append_right _).trans ?_
    rw [List.append_assoc]
    exact (kept.accounted.append_left _).trans List.perm_append_comm
  case apart =>
    rw [show (b.occur o).chronicle.vigils = _ from vigils, List.map_append]
    refine List.nodup_append.mpr ⟨kept.apart, by cases (b.chronicle.session.met? o).bind Milestone.vigil? <;> simp, ?_⟩
    intro id old other more same
    obtain ⟨vigil, known, rfl⟩ := List.mem_map.mp old
    obtain ⟨added, left, rfl⟩ := List.mem_map.mp more
    exact Nat.ne_of_lt (Nat.lt_of_lt_of_le (kept.inside vigil known) (new added (Option.mem_toList.mp left)).1) same
  case inside =>
    rw [show (b.occur o).chronicle.vigils = _ from vigils]
    intro vigil member
    rcases List.mem_append.mp member with old | left
    · exact Nat.lt_of_lt_of_le (kept.inside vigil old) size
    · exact (new vigil (Option.mem_toList.mp left)).2
  case tracked =>
    rw [watches.tracked]
    refine (kept.tracked.append_right _).trans (List.perm_append_comm.trans ?_)
    refine .trans ?_ (watches.reports.map _).symm
    rw [List.map_append]
    cases (b.session.met? o).bind Milestone.vigil? <;> exact .refl _
  case failures =>
    rw [watches.failures, made]
    exact kept.failures
  case settled =>
    rw [made]
    exact kept.settled_occur orderly o

theorem Kept.told (kept : b.Kept before) (orderly : b.session.Orderly b.session.running) {e : Event} {name : Value} {id : Nat}
    (told : b.session.tells? e = some (name, id)) : (b.occur (.event e)).Kept before := by
  obtain ⟨rfl, none, _, ended, _, tracked, due, failures⟩ := Session.told_happen orderly told
  have made : (b.occur (.event .step)).reports = b.reports ++ [{ session := b.session, name, id }] := by
    rw [occur, Session.told?, told]
    rfl
  have same : (b.occur (.event .step)).session = b.session.happen .step := rfl
  have vigils : (b.occur (.event .step)).chronicle.vigils = b.chronicle.vigils := by
    have met : b.chronicle.session.met? (.event .step) = .none := none
    rw [occur, vigils_occur, met]
    exact List.append_nil _
  constructor
  case accounted =>
    rw [made, vigils, List.map_append, List.append_assoc, same]
    exact (congrArg (b.reports.map Report.vigil ++ ·) due) ▸ kept.accounted
  case apart => exact vigils ▸ kept.apart
  case inside =>
    rw [vigils]
    exact fun vigil member => Nat.lt_of_lt_of_le (kept.inside vigil member) (Session.occur_keeps orderly (.event .step)).1
  case tracked =>
    have before := kept.tracked.erase id
    rw [due, List.map_cons, List.erase_cons_head] at before
    rw [same, tracked]
    exact before
  case failures =>
    rw [same, failures, made, List.reverse_append, kept.failures, List.filterMap_append, List.append_assoc]
    congr 2
    cases failed : b.session.failed? name id <;> simp [Report.record?, failed]
  case settled =>
    rw [made]
    intro r member
    rcases List.mem_append.mp member with old | new
    · exact kept.settled_occur orderly _ r old
    · cases List.mem_singleton.mp new
      exact ⟨ended, (Session.occur_keeps orderly (.event .step)).2.1 id ended⟩

theorem Kept.occur (kept : b.Kept before) (orderly : b.session.Orderly b.session.running) (o : Occasion) :
    (b.occur o).Kept before := by
  rcases o.event_or_exchange with ⟨e, rfl⟩ | other
  · cases told : b.session.tells? e with
    | none =>
      obtain ⟨watches, new⟩ := Session.watches_happen orderly told
      exact kept.silent orderly (by rw [Session.told?, told, Option.map_none]) watches new
    | some vigil => exact kept.told orderly told
  · obtain ⟨schedule, _, tracked, _, _, met⟩ := Session.occur_other (s := b.session) other
    have trace : (b.session.occur o).trace = b.session.trace := by
      cases o with
      | event e => exact absurd rfl (other e)
      | answering state transition => rfl
      | furnish factory => rfl
    refine kept.silent orderly ?_ ?_ ?_
    · cases o with
      | event e => exact absurd rfl (other e)
      | answering state transition => rfl
      | furnish factory => rfl
    · rw [met]
      exact (Session.SameWatch.same schedule tracked trace).watches
    · rw [met]
      nofun

theorem Kept.course (kept : b.Kept before) (orderly : b.session.Orderly b.session.running) (occasions : List Occasion) :
    (b.course occasions).Kept before :=
  (along orderly (P := fun b => b.Kept before) kept (fun _ o orderly kept => kept.occur orderly o) occasions).2

/-- What has become of a vigil: its report is due, or has been made once, when the behaviour had ended. -/
inductive Disposed (b : Bulletin) (vigil : Value × Nat) : Prop where
  | due (tracked : vigil.2 ∈ b.session.tracked) (unheard : b.about vigil.2 = [])
  | made {r : Report} {outcome : Outcome} (once : b.about vigil.2 = [r]) (name : r.name = vigil.1)
      (untracked : vigil.2 ∉ b.session.tracked) (then_ : r.session.schedule.outcome? vigil.2 = some outcome)
      (now : b.session.schedule.outcome? vigil.2 = some outcome)
      (written : r.record? = Record.ofOutcome? (r.session.datum vigil.1) outcome)

variable {vigil : Value × Nat}

theorem Kept.once (kept : b.Kept before) : ((b.reports.map (·.id)) ++ b.session.reports.map (·.2)).Nodup := by
  have apart := (kept.accounted.map (·.2)).nodup_iff.mpr kept.apart
  rw [List.map_append, List.map_map] at apart
  exact apart

theorem Kept.about_made (kept : b.Kept before) {r : Report} (made : r ∈ b.reports) : b.about r.id = [r] := by
  obtain ⟨front, back, same⟩ := List.append_of_mem made
  have once := (List.nodup_append.mp kept.once).1
  rw [same, List.map_append, List.map_cons, List.nodup_append, List.nodup_cons] at once
  obtain ⟨_, ⟨last, _⟩, first⟩ := once
  have others (rs : List Report) (absent : r.id ∉ rs.map (·.id)) : (rs.filter fun other => other.id = r.id) = [] := by
    rw [List.filter_eq_nil_iff]
    intro other member own
    exact absent (List.mem_map.mpr ⟨other, member, of_decide_eq_true own⟩)
  have before : r.id ∉ front.map (·.id) := fun member => first _ member _ (List.mem_cons_self ..) rfl
  rw [about, same, List.filter_append, List.filter_cons_of_pos (by simp), others front before, others back last]
  rfl

theorem Kept.disposed (kept : b.Kept before) (known : vigil ∈ b.chronicle.vigils) : b.Disposed vigil := by
  obtain ⟨name, id⟩ := vigil
  rcases List.mem_append.mp (kept.accounted.mem_iff.mpr known) with made | due
  · obtain ⟨r, isMade, same⟩ := List.mem_map.mp made
    cases same
    obtain ⟨ended, still⟩ := kept.settled r isMade
    obtain ⟨outcome, ended⟩ := Option.ne_none_iff_exists'.mp ended
    refine .made (kept.about_made isMade) rfl ?_ ended (still.trans ended) ?_
    · intro tracked
      obtain ⟨_, _, apart⟩ := List.nodup_append.mp kept.once
      exact apart _ (List.mem_map.mpr ⟨r, isMade, rfl⟩) _ (kept.tracked.mem_iff.mp tracked) rfl
    · rw [Report.record?, Session.failed?, ended, Option.bind_some]
  · have among : id ∈ b.session.reports.map (·.2) := List.mem_map.mpr ⟨_, due, rfl⟩
    refine .due (kept.tracked.mem_iff.mpr among) ?_
    rw [about, List.filter_eq_nil_iff]
    intro r made own
    obtain ⟨_, _, apart⟩ := List.nodup_append.mp kept.once
    exact apart _ (List.mem_map.mpr ⟨r, made, rfl⟩) _ among (of_decide_eq_true own)

theorem Kept.queued (kept : b.Kept before) (orderly : b.session.Orderly b.session.running) {id : Nat}
    (tracked : id ∈ b.session.tracked) (settled : b.session.schedule.outcome? id ≠ none) :
    ∃ name, .tell (.report name) id ∈ b.session.schedule.queue := by
  obtain ⟨⟨name, _⟩, due, rfl⟩ := List.mem_map.mp (kept.tracked.mem_iff.mp tracked)
  refine ⟨name, (Schedule.mem_notices.mp (Schedule.mem_reports.mp due)).resolve_right fun waits => ?_⟩
  exact settled (orderly.schedule.waited _ _ waits)

/-- Where a task stands that waits for all behaviour, and then for the reports on it. -/
inductive Awaits (b : Bulletin) (task : Nat) (rest : List Frame) (id : Nat) : Prop where
  | heard (heard : b.about id ≠ [])
  | ended (ended : b.session.schedule.outcome? task ≠ none)
  | drains {supply : Supply} (stands : b.session.Stands task (.drain :: rest) supply)
  | behind (front back : List Job) {name : Value} (queue : b.session.schedule.queue = front ++ .run task :: back)
      (first : .tell (.report name) id ∈ front)

variable {task id : Nat} {rest : List Frame}

theorem about_occur (b : Bulletin) (o : Occasion) (id : Nat) :
    (b.occur o).about id = b.about id ++ (b.session.told? o).toList.filter fun r => r.id = id :=
  List.filter_append ..

/-- A drain goes on to wait for behaviour that has not ended, or falls in behind the reports. -/
theorem Kept.drain (kept : b.Kept before) (orderly : b.session.Orderly b.session.running) (known : vigil ∈ b.chronicle.vigils)
    {values : List Value} (turn : b.session.turn = some { task, frames := .drain :: rest, values }) :
    (b.occur (.event .step)).Awaits task rest vigil.2 := by
  by_cases pending : b.session.tracked.filter b.session.schedule.isPending = []
  · rcases kept.disposed known with ⟨tracked, _⟩ | ⟨once, _, _, _, _, _⟩
    · have settled : b.session.schedule.outcome? vigil.2 ≠ none := by
        intro open_
        have among : vigil.2 ∈ b.session.tracked.filter b.session.schedule.isPending :=
          List.mem_filter.mpr ⟨tracked, by rw [Schedule.isPending, open_]; rfl⟩
        rw [pending] at among
        cases among
      obtain ⟨name, queued⟩ := kept.queued orderly tracked settled
      refine .behind b.session.schedule.queue [] ?_ queued
      have yields : b.session.drain = (b.session, .yield []) := by rw [Session.drain, pending]
      rw [show (b.occur (.event .step)).session = b.session.happen .step from rfl, Session.happen_step turn,
        Session.takeStep, yields]
      rfl
    · refine .heard ?_
      rw [about_occur, once]
      simp
  · obtain ⟨member, among⟩ := List.exists_mem_of_ne_nil _ pending
    obtain ⟨tracked, open_⟩ := List.mem_filter.mp among
    obtain ⟨supply, stands⟩ := Session.drains_step orderly turn tracked (Option.isNone_iff_eq_none.mp open_)
    exact .drains stands

theorem Awaits.occur (awaits : b.Awaits task rest vigil.2) (kept : b.Kept before) (known : vigil ∈ b.chronicle.vigils)
    (orderly : b.session.Orderly b.session.running) (o : Occasion) : (b.occur o).Awaits task rest vigil.2 := by
  cases awaits with
  | heard heard =>
    refine .heard ?_
    rw [about_occur]
    exact List.append_ne_nil_of_left_ne_nil heard _
  | ended ended =>
    refine .ended ?_
    rwa [show (b.occur o).session = b.session.occur o from rfl, (Session.occur_keeps orderly o).2.1 task ended]
  | drains stands =>
    rcases o.event_or_exchange with ⟨e, rfl⟩ | other
    · rcases Session.stands_happen_on orderly e stands with ⟨after, stands, _⟩ | ⟨_, fault, _, _, failed⟩ | ⟨rfl, own⟩
      · exact .drains stands
      · exact .ended fun open_ => by cases failed.symm.trans open_
      · obtain ⟨⟨_, frames, values⟩, turn, rfl⟩ := Option.map_eq_some_iff.mp own
        obtain ⟨rfl, -⟩ := stands.of_turn orderly turn
        exact kept.drain orderly known turn
    · exact .drains ((Session.stands_other other).mpr stands)
  | @behind front back name queue first =>
    rcases o.event_or_exchange with ⟨e, rfl⟩ | other
    · rcases Session.queue_happen orderly e with ⟨more, grown⟩ | ⟨rfl, turn, job, left, next, more, grown⟩
      · refine .behind front (back ++ more) (grown.symm.trans ?_) first
        rw [queue, List.append_assoc, List.cons_append]
      · cases front with
        | nil => cases first
        | cons head front =>
          cases next.symm.trans queue
          rcases List.mem_cons.mp first with rfl | later
          · have told : b.session.tells? .step = some (name, vigil.2) := by simp only [Session.tells?, turn, next]
            refine .heard ?_
            rw [about_occur, Session.told?, told]
            simp
          · refine .behind front (back ++ more) (grown.symm.trans ?_) later
            exact List.append_assoc ..
    · refine .behind front back ?_ first
      exact (congrArg Schedule.queue (Session.occur_other other).1).trans queue

theorem known_occur (known : vigil ∈ b.chronicle.vigils) (o : Occasion) : vigil ∈ (b.occur o).chronicle.vigils := by
  rw [Bulletin.occur, vigils_occur]
  exact List.mem_append_left _ known

/-- When a drain returns, whatever was watched before it was called has been reported on. -/
theorem Kept.drained (kept : b.Kept before) (known : vigil ∈ b.chronicle.vigils) (orderly : b.session.Orderly b.session.running)
    {during : List Occasion} {first last : List Value}
    (called : b.session.turn = some { task, frames := .drain :: rest, values := first })
    (returned : (b.course during).session.turn = some { task, frames := rest, values := last }) :
    (b.course during).about vigil.2 ≠ [] := by
  have start : b.Kept before ∧ vigil ∈ b.chronicle.vigils ∧ b.Awaits task rest vigil.2 := ⟨kept, known, .drains (.turn called)⟩
  obtain ⟨later, _, _, awaits⟩ := along orderly
    (P := fun b => b.Kept before ∧ vigil ∈ b.chronicle.vigils ∧ b.Awaits task rest vigil.2) start (by
      rintro d o orderly ⟨kept, known, awaits⟩
      exact ⟨kept.occur orderly o, known_occur known o, awaits.occur kept known orderly o⟩) during
  have stands : (b.course during).session.Stands task rest (.values last) := .turn returned
  cases awaits with
  | heard heard => exact heard
  | ended ended => exact absurd (stands.alive later).1.2 ended
  | drains waits => exact absurd (waits.of_turn later returned).1 (by simp)
  | behind _ _ queue _ =>
    have queued : .run task ∈ (b.course during).session.schedule.queue := by simp [queue]
    have schedule := later.schedule
    rw [Session.running, returned] at schedule
    exact absurd (Schedule.mem_wakes.mpr (Or.inl queued)) schedule.running_not_woken

theorem known_course (known : vigil ∈ b.chronicle.vigils) (occasions : List Occasion) :
    vigil ∈ (b.course occasions).chronicle.vigils := by
  induction occasions generalizing b with
  | nil => exact known
  | cons o rest ih => exact ih (known_occur known o)

theorem heard_course {id : Nat} (heard : b.about id ≠ []) (occasions : List Occasion) : (b.course occasions).about id ≠ [] := by
  induction occasions generalizing b with
  | nil => exact heard
  | cons o rest ih =>
    refine ih (b := b.occur o) ?_
    rw [about_occur]
    exact List.append_ne_nil_of_left_ne_nil heard _

end Bulletin

namespace Session

/-- However transitions overlap, and whatever becomes of their behaviour, the failures that a machine
reports are those of the reports that have been made, and the vigils of the transitions are accounted
for one by one by the reports that have been made and those that are due. What is tracked is what has
not been reported on: it has not ended, or its report is queued. A transition answers with a failure
that is raised at once, and is not watched then, or it is watched under the name of its own target. What
is watched is reported on once, with the outcome of the behaviour, and by the time that a drain called
later has returned. -/
theorem failures_reported {s : Session} (fresh : s.Fresh) (occasions : List Occasion) :
    let b := ({ chronicle := { session := s } } : Bulletin).course occasions
    let c := b.chronicle
    c.session.failures.reverse = s.failures.reverse ++ b.reports.filterMap Report.record? ∧
    (b.reports.map Report.vigil ++ c.session.reports).Perm c.vigils ∧ (c.vigils.map (·.2)).Nodup ∧
    (∀ id ∈ c.session.tracked, id ∈ c.vigils.map (·.2) ∧ (c.session.schedule.outcome? id = none ∨
      ∃ name, .tell (.report name) id ∈ c.session.schedule.queue)) ∧
    (∀ vigil ∈ c.vigils, c.session.schedule.outcome? vigil.2 = none → vigil.2 ∈ c.session.tracked) ∧
    ((∀ vigil ∈ c.vigils, c.session.schedule.outcome? vigil.2 ≠ none) → c.session.schedule.queue = [] →
      c.session.tracked = []) ∧
    ∀ o u operation e, c.session.met? o = some (.operate u operation) → u.entrance? operation = some e →
      let v := u.opened operation
      v.Undertakes e (u.outcome operation) (v.vigil? e) ∧
      ∀ vigil, v.vigil? e = some vigil → ∀ before during after,
        let d := (b.occur o).course (before ++ during ++ after)
        vigil ∈ d.chronicle.vigils ∧ d.Disposed vigil ∧
        (∀ f, v.follower? e = some f → ∀ outcome, d.session.schedule.outcome? f.task = some outcome →
          d.chronicle.Verdict f outcome) ∧
        ∀ task rest first last,
          ((b.occur o).course before).session.turn = some { task, frames := .drain :: rest, values := first } →
          ((b.occur o).course (before ++ during)).session.turn = some { task, frames := rest, values := last } →
            d.about vigil.2 ≠ [] := by
  intro b c
  have start : ({ chronicle := { session := s } } : Bulletin).session.Orderly s.running := fresh.orderly
  obtain ⟨orderly, kept⟩ := Bulletin.along start (P := fun b => b.Kept s.failures.reverse) (.start fresh)
    (fun _ o orderly kept => kept.occur orderly o) occasions
  have dated : c.Dated := by
    have empty : ({ session := s } : Chronicle).Dated := fun _ member => (nomatch member)
    have all := empty.course fresh.orderly occasions
    rwa [← Bulletin.chronicle_course { chronicle := { session := s } } occasions] at all
  have tracked : ∀ id ∈ c.session.tracked, id ∈ c.vigils.map (·.2) ∧ (c.session.schedule.outcome? id = none ∨
      ∃ name, .tell (.report name) id ∈ c.session.schedule.queue) := by
    intro id member
    refine ⟨?_, ?_⟩
    · rw [← (kept.accounted.map (·.2)).mem_iff, List.map_append]
      exact List.mem_append_right _ (kept.tracked.mem_iff.mp member)
    · by_cases open_ : c.session.schedule.outcome? id = none
      · exact Or.inl open_
      · exact Or.inr (kept.queued orderly member open_)
  refine ⟨kept.failures, kept.accounted, kept.apart, tracked, ?_, ?_, ?_⟩
  · intro vigil known open_
    rcases kept.disposed known with ⟨tracked, _⟩ | ⟨_, _, _, _, now, _⟩
    · exact tracked
    · cases open_.symm.trans now
  · intro ended idle
    rw [List.eq_nil_iff_forall_not_mem]
    intro id member
    obtain ⟨known, open_ | ⟨name, queued⟩⟩ := tracked id member
    · obtain ⟨vigil, among, rfl⟩ := List.mem_map.mp known
      exact ended vigil among open_
    · rw [idle] at queued
      cases queued
  · intro o u operation e met entered v
    refine ⟨outcome_entered entered ▸ v.undertakes_perform e, fun vigil watched before during after => ?_⟩
    have vigils : vigil ∈ (b.occur o).chronicle.vigils := by
      have left : Milestone.vigil? (.operate u operation) = some vigil := by
        rw [Milestone.vigil?, entered]
        exact watched
      have known := Bulletin.vigils_occur c o
      rw [met, Option.bind_some, left] at known
      rw [Bulletin.occur, known]
      exact List.mem_append_right _ (List.mem_singleton_self _)
    have later := orderly.occur o
    have occurred := kept.occur orderly o
    have keeps := occurred.course later
    refine ⟨Bulletin.known_course vigils _, (keeps _).disposed (Bulletin.known_course vigils _), ?_, ?_⟩
    · intro f follower outcome settled
      have left : Milestone.follower? (.operate u operation) = some f := by
        rw [Milestone.follower?, entered]
        exact follower
      have concludes := (Chronicle.Concludes.start dated orderly met left).course later (before ++ during ++ after)
      rw [Bulletin.session, Bulletin.chronicle_course] at settled
      rw [Bulletin.chronicle_course]
      exact concludes.ended outcome settled
    · intro task rest first last called returned
      rw [Bulletin.course_append] at returned ⊢
      refine Bulletin.heard_course ?_ after
      rw [Bulletin.course_append]
      have orderly := (Bulletin.along (b := b.occur o) later (P := fun _ => True) trivial (fun _ _ _ _ => trivial) before).1
      exact (keeps before).drained (Bulletin.known_course vigils before) orderly called returned

/-- A machine whose behaviour of states fails at once, and whose behaviour of transitions ends well. The
second state is entered by way of a transition with a configuration. -/
private def failing : Session where
  store := { cells := #[
    .map [(.text "initial", .text "A"), (.text "states", .tuple [.ref 1, .ref 3])],
    .map [(.text "name", .text "A"), (.text "events", .tuple [.ref 2]), (.text "do", .text "wait")],
    .map [(.text "on", .text "go"), (.text "goto", .text "B"), (.text "do", .text "leave")],
    .map [(.text "name", .text "B"), (.text "do", .text "arrive")]] }
  behavior := .canned .failed .done
  machine := some {}

private def failed : Bulletin :=
  ({ chronicle := { session := failing } } : Bulletin).course [.event (.load (.ref 0)), .event (.setRunning true)]

private def failingOver : Bulletin :=
  failed.occur (.event (.fire (.text "go")))

/-- A drain, up to its first turn. -/
private def waiting : List Occasion :=
  .event .drain :: List.replicate 5 (.event .step)

set_option maxRecDepth 4000 in
theorem failing_reported : failing.Fresh ∧
    let u := failed.session
    let e : Entrance := { target := .ref 3, config := .text "leave", event := .text "go" }
    u.met? (.event (.fire (.text "go"))) = some (.operate u (.fire (.text "go"))) ∧
      u.entrance? (.fire (.text "go")) = some e ∧ (u.opened (.fire (.text "go"))).vigil? e = some (.text "B", 2) ∧
      (failingOver.course (waiting ++ List.replicate 3 (.event .step))).about 2 ≠ [] := by
  have fresh : failing.Fresh := ⟨rfl, rfl, rfl, rfl, rfl⟩
  have met : failed.session.met? (.event (.fire (.text "go"))) = some (.operate failed.session (.fire (.text "go"))) := rfl
  have entered : failed.session.entrance? (.fire (.text "go")) =
      some { target := .ref 3, config := .text "leave", event := .text "go" } := rfl
  have watched : (failed.session.opened (.fire (.text "go"))).vigil?
      { target := .ref 3, config := .text "leave", event := .text "go" } = some (.text "B", 2) := rfl
  have called : (failingOver.course waiting).session.turn = some { task := 3, frames := [.drain], values := [] } := rfl
  have returned : (failingOver.course (waiting ++ List.replicate 3 (.event .step))).session.turn =
      some { task := 3, frames := [], values := [] } := rfl
  obtain ⟨-, -, -, -, -, -, each⟩ := failures_reported fresh [.event (.load (.ref 0)), .event (.setRunning true)]
  obtain ⟨-, -, -, heard⟩ := (each _ _ _ _ met entered).2 _ watched waiting (List.replicate 3 (.event .step)) []
  exact ⟨fresh, met, entered, watched, heard 3 [] [] [] called returned⟩

/-- The failures of both states are reported, each under the name of its own state. -/
example : (failingOver.course (waiting ++ List.replicate 3 (.event .step))).session.failures.map (·.message) =
    ["Behavior of 'B' failed: stub failed", "Behavior of 'A' failed: stub failed"] := by
  decide +kernel

end Session

end Interaction
