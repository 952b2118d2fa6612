import Mathlib.Data.Nat.Find
import Interaction.Proofs.Advancing
import Interaction.Proofs.Materializing
import Interaction.Proofs.Soundness

/-! What becomes of an undertaking when a part of it fails. The parts of an invocation are worked on in
their order, each after the ones before it have ended well. So nothing more is done for an invocation that
has failed, or for one that it is a part of; only what is mapped side by side with it goes on. -/

namespace Interaction

section
variable {calls : List Invocation} {k m n : Nat}

theorem Within.le (within : Within calls m n) (rooted : Rooted calls) : m ≤ n := by
  induction within with
  | self => exact Nat.le_refl m
  | part held same _ ih => exact Nat.le_trans ih (Nat.le_of_lt (rooted.linked _ _ _ held same).1)

/-- The way from an invocation to one that belongs to it begins with one that is a part of it. -/
theorem Within.child (within : Within calls m n) (other : m ≠ n) :
    ∃ a v, calls[a]? = some v ∧ v.parent = some m ∧ Within calls a n := by
  induction within with
  | self => exact absurd rfl other
  | @part n parent v held same within ih =>
    by_cases last : m = parent
    · exact ⟨n, v, held, last ▸ same, .self⟩
    · obtain ⟨a, w, found, below, rest⟩ := ih last
      exact ⟨a, w, found, below, .part held same rest⟩

namespace Rooted

variable (rooted : Rooted calls)
include rooted

theorem within_root {v : Invocation} (held : calls[n]? = some v) : Within calls 0 n := by
  induction n using Nat.strongRecOn generalizing v with
  | ind n ih =>
    cases parent : v.parent with
    | none => exact rooted.root n v held parent ▸ .self
    | some above =>
      have earlier := (rooted.linked n v above held parent).1
      have inside := Nat.lt_trans earlier (List.getElem?_eq_some_iff.mp held).1
      exact .part held parent (ih above earlier (List.getElem?_eq_getElem inside))

theorem done_child {v : Invocation} (held : calls[n]? = some v) (parent : v.parent = some m) (done : Done calls m) :
    Done calls n := by
  obtain ⟨_, ended | ⟨w, above, part⟩⟩ := rooted.linked n v m held parent
  · exact ended
  · cases done with
    | ended found progress =>
      cases above.symm.trans found
      rw [progress] at part
      cases part
    | finished found progress result =>
      cases above.symm.trans found
      rw [progress] at part
      exact List.mem_singleton.mp part ▸ result

theorem done_within (within : Within calls m n) (done : Done calls m) : Done calls n := by
  induction within with
  | self => exact done
  | part held same _ ih => exact rooted.done_child held same ih

theorem waits_for {v : Invocation} (held : calls[n]? = some v) (parent : v.parent = some m) (unfinished : ¬ Done calls n) :
    ∃ w, calls[m]? = some w ∧ n ∈ w.progress.parts :=
  (rooted.linked n v m held parent).2.resolve_left unfinished

theorem meet {v w : Invocation} (one : calls[k]? = some v) (other : calls[n]? = some w) :
    ∃ m, Within calls m k ∧ Within calls m n ∧ ∀ a, Within calls a k → Within calls a n → a ≤ m := by
  classical
  let P (m : Nat) : Prop := Within calls m k ∧ Within calls m n
  have holds : P (Nat.findGreatest P k) :=
    Nat.findGreatest_spec (Nat.zero_le k) ⟨rooted.within_root one, rooted.within_root other⟩
  exact ⟨_, holds.1, holds.2, fun a one other => Nat.le_findGreatest (one.le rooted) ⟨one, other⟩⟩

/-- Of two invocations that have not ended well, one belongs to the other, or they belong to different items of
a mapping. -/
theorem apart {v w : Invocation} (one : calls[k]? = some v) (other : calls[n]? = some w) (open₁ : ¬ Done calls k)
    (open₂ : ¬ Done calls n) : Within calls k n ∨ Within calls n k ∨
      ∃ (m : Nat) (x : Invocation) (items : List Nat) (a b : Nat), calls[m]? = some x ∧ x.progress = .mapping items ∧
        a ∈ items ∧ b ∈ items ∧ a ≠ b ∧
        Within calls a n ∧ Within calls b k := by
  obtain ⟨m, above, aboveToo, last⟩ := rooted.meet one other
  by_cases first : m = k
  · exact Or.inl (first ▸ aboveToo)
  by_cases second : m = n
  · exact Or.inr (Or.inl (second ▸ above))
  obtain ⟨b, y, heldB, parentB, withinB⟩ := above.child first
  obtain ⟨a, x, heldA, parentA, withinA⟩ := aboveToo.child second
  obtain ⟨z, held, partB⟩ := rooted.waits_for heldB parentB fun done => open₁ (rooted.done_within withinB done)
  obtain ⟨z', held', partA⟩ := rooted.waits_for heldA parentA fun done => open₂ (rooted.done_within withinA done)
  cases held.symm.trans held'
  have distinct : a ≠ b := by
    rintro rfl
    have low := last a withinB withinA
    have high := (rooted.linked a y m heldB parentB).1
    omega
  refine Or.inr (Or.inr ?_)
  cases progress : z.progress with
  | mapping items =>
    rw [progress] at partA partB
    exact ⟨m, z, items, a, b, held, progress, partA, partB, distinct, withinA, withinB⟩
  | fetching inner =>
    rw [progress] at partA partB
    exact absurd ((List.mem_singleton.mp partA).trans (List.mem_singleton.mp partB).symm) distinct
  | finishing result =>
    rw [progress] at partA partB
    exact absurd ((List.mem_singleton.mp partA).trans (List.mem_singleton.mp partB).symm) distinct
  | _ =>
    rw [progress] at partA
    cases partA

/-- Between an invocation and one that belongs to it and has another task, something is mapped. -/
theorem mapped_between {v w : Invocation} (within : Within calls n k) (unfinished : ¬ Done calls k) (outer : calls[n]? = some v)
    (inner : calls[k]? = some w) (other : v.task ≠ w.task) :
    ∃ (m : Nat) (x : Invocation) (items : List Nat) (b : Nat), Within calls n m ∧ calls[m]? = some x ∧
      x.progress = .mapping items ∧ b ∈ items ∧ Within calls b k := by
  induction within generalizing w with
  | self =>
    cases outer.symm.trans inner
    exact absurd rfl other
  | @part k parent w' held same within ih =>
    cases inner.symm.trans held
    obtain ⟨x, above, part⟩ := rooted.waits_for held same unfinished
    by_cases mapping : ∃ items, x.progress = .mapping items
    · obtain ⟨items, progress⟩ := mapping
      exact ⟨parent, x, items, k, within, above, progress, by rwa [progress] at part, .self⟩
    · obtain ⟨w', found, _, task⟩ := rooted.parts parent x k above part
      cases held.symm.trans found
      have alike := task (not_exists.mp mapping)
      obtain ⟨m, y, items, b, rest⟩ := ih (fun done => unfinished (rooted.done_child held same done)) above (alike ▸ other)
      exact ⟨m, y, items, b, rest.1, rest.2.1, rest.2.2.1, rest.2.2.2.1, .part held same rest.2.2.2.2⟩

end Rooted
end

/-- How far an invocation has come, as a number. -/
def Progress.rank : Progress → Nat
  | .waiting => 0
  | .fetching _ | .ready => 1
  | .mapping _ => 2
  | .called _ => 3
  | .answered => 4
  | .finishing _ => 5
  | .ended => 6

theorem Session.failed_step {s : Session} (orderly : s.Orderly s.running) {task : Nat} {frame : Frame} {rest : List Frame}
    {values : List Value} (turn : s.turn = some { task, frames := frame :: rest, values }) {fault : Fault}
    (fails : (s.takeStep frame values).2 = .fail fault) : (s.happen .step).schedule.outcome? task = some (.error fault) := by
  have ordered := orderly.grows (.takeStep s frame values orderly.tracked)
  rw [running, turn] at ordered
  rw [happen_step turn, fails]
  exact Schedule.outcome?_settle_self (ordered.schedule.alive task (List.mem_cons_self ..)).1 _

namespace Undertaking

variable {u : Undertaking} {k n : Nat} {v : Invocation} {frame : Frame} {values : List Value} {p : Progress}

/-- Whether an invocation has failed: its task has, before it has ended well, or its method has. -/
inductive Failed (u : Undertaking) (n : Nat) : Prop where
  | task {v : Invocation} {fault : Fault} (held : u.calls[n]? = some v)
      (settled : u.session.schedule.outcome? v.task = some (.error fault)) (unfinished : ¬ Done u.calls n) : Failed u n
  | method {v : Invocation} {id : Nat} {fault : Fault} (held : u.calls[n]? = some v) (called : v.progress = .called (.promise id))
      (settled : u.session.schedule.outcome? id = some (.error fault)) : Failed u n

theorem Failed.unfinished (failed : u.Failed n) : ¬ Done u.calls n := by
  cases failed with
  | task _ _ unfinished => exact unfinished
  | method held called _ =>
    intro done
    cases done with
    | ended found progress =>
      cases held.symm.trans found
      cases called.symm.trans progress
    | finished found progress _ =>
      cases held.symm.trans found
      cases called.symm.trans progress

theorem Failed.held (failed : u.Failed n) : ∃ v, u.calls[n]? = some v := by
  cases failed with
  | task held _ _ => exact ⟨_, held⟩
  | method held _ _ => exact ⟨_, held⟩

theorem Due.kept {id : Nat} (due : u.Due (.called (.promise id)) frame) : u.session.schedule.Succeeded id := by
  cases frame with
  | follow config =>
    rcases due with ⟨_, same, succeeded⟩ | other
    · cases same
      exact succeeded
    · cases other
  | invoke config given => cases due
  | materialize config => cases due
  | mapItem mapping index value => cases due
  | map target => rcases due with same | ⟨_, same, _⟩ <;> cases same
  | arrange config => rcases due with same | ⟨_, same, _⟩ <;> cases same
  | call target => obtain ⟨_, same, _⟩ := due; cases same
  | place config whole => obtain ⟨_, same, _⟩ := due; cases same
  | pause => obtain ⟨_, same⟩ := due; cases same
  | act action request => obtain ⟨_, same⟩ := due; cases same
  | _ => exact False.elim due

theorem Due.rank {count : Nat} (due : u.Due v.progress frame) (came : u.session.progress? count frame values = some p) :
    v.progress.rank < p.rank := by
  have first (waiting : v.progress = .waiting) : v.progress.rank = 0 := waiting ▸ rfl
  cases brings came with
  | readies => exact (first due).trans_lt (by decide)
  | @fetches frame config inner begins =>
    cases frame with
    | invoke config given => exact (first due).trans_lt Nat.zero_lt_one
    | materialize config => exact (first due).trans_lt Nat.zero_lt_one
    | _ => cases begins
  | @maps frame items maps =>
    rcases maps with gathers | ⟨config, rfl⟩
    · cases frame with
      | map target => rcases due with same | ⟨_, same, _⟩ <;> rw [same] <;> exact Nat.lt_succ_self 1
      | arrange config => rcases due with same | ⟨_, same, _⟩ <;> rw [same] <;> exact Nat.lt_succ_self 1
      | _ => cases gathers
    · exact (first due).trans_lt Nat.zero_lt_two
  | calls =>
    obtain ⟨items, same, _⟩ := due
    rw [same]
    exact Nat.lt_succ_self 2
  | acts =>
    obtain ⟨_, same⟩ := due
    rw [same]
    exact Nat.lt_succ_self 3
  | follows => rcases due with ⟨_, same, _⟩ | same <;> simp [same, Progress.rank]
  | followed => rcases due with ⟨_, same, _⟩ | same <;> simp [same, Progress.rank]
  | passed => exact (first due).trans_lt (by decide)
  | placed =>
    obtain ⟨_, same, _⟩ := due
    rw [same]
    exact (by decide : 2 < 6)

theorem Due.unended (due : u.Due v.progress frame) (held : u.calls[n]? = some v) : ¬ Done u.calls n := by
  obtain ⟨_, open_, unfinished⟩ := due.parts
  intro done
  cases done with
  | ended found progress =>
    cases held.symm.trans found
    exact open_ progress
  | finished found progress _ =>
    cases held.symm.trans found
    exact unfinished _ progress

/-- Every step but the first ones is for the configuration that the invocation has begun on. -/
theorem Prepared.aim {steps : List Frame} {supply : Supply} (prepared : u.Prepared n p frame steps supply)
    (later : frame.starts = false) {config : Value} (aim : frame.aim? = some config) : u.aims n = some config := by
  cases prepared with
  | waiting starts _ => cases later.symm.trans starts
  | ready _ aimed _ => exact aimed.symm.trans aim
  | fetched _ _ aimed _ => exact aimed.symm.trans aim
  | mapped _ _ aimed _ => exact aimed.symm.trans aim
  | pausing _ => cases aim
  | acting _ => cases aim
  | called aimed _ => exact aimed.symm.trans aim
  | answered aimed => exact aimed.symm.trans aim

theorem Proper.takes (proper : u.Proper) (takes : u.Takes n frame) :
    ∃ v, u.calls[n]? = some v ∧ u.Due v.progress frame ∧ u.session.schedule.outcome? v.task = none ∧
      (frame.isState = true → n = 0) ∧ (frame.starts = false → ∀ config, frame.aim? = some config → u.aims n = some config) := by
  obtain ⟨task, own, marks, rest, values, turn, worker⟩ := takes
  obtain ⟨m, v, steps, under, left, rfl, same, held, mine, prepared, _⟩ := proper.turn turn worker
  obtain ⟨rfl, rfl⟩ := List.cons.inj same
  have alive := ((Session.Stands.turn turn).alive proper.orderly).1.2
  refine ⟨v, held, prepared.due, mine ▸ alive, ?_, fun later config aim => prepared.aim later aim⟩
  generalize v.progress = p at prepared
  cases prepared with
  | waiting _ fits => exact fits
  | ready _ _ fits => exact fits
  | fetched _ _ _ fits => exact fits
  | mapped _ _ _ fits => exact fits
  | _ => exact nofun

/-- All that belongs to an invocation has ended well when a step is taken for it. -/
theorem Proper.inner_done (proper : u.Proper) (takes : u.Takes k frame) (within : Within u.calls k n) (other : k ≠ n) :
    Done u.calls n := by
  obtain ⟨v, held, due, _, _⟩ := proper.takes takes
  obtain ⟨a, w, found, parent, rest⟩ := within.child other
  refine proper.rooted.done_within rest ?_
  obtain ⟨_, ended | ⟨x, above, part⟩⟩ := proper.rooted.linked a w k found parent
  · exact ended
  · cases held.symm.trans above
    exact due.parts.1 a part

/-- Nothing more is done for what has failed, or for what it is a part of. -/
theorem Failed.silent (failed : u.Failed n) (proper : u.Proper) (within : Within u.calls k n) : ¬ u.Takes k frame := by
  intro takes
  obtain ⟨v, held, due, alive, _⟩ := proper.takes takes
  by_cases other : k = n
  · subst other
    cases failed with
    | task found settled _ =>
      cases held.symm.trans found
      cases alive.symm.trans settled
    | method found called settled =>
      cases held.symm.trans found
      rw [called] at due
      obtain ⟨values, succeeded⟩ := due.kept
      cases succeeded.symm.trans settled
  · exact failed.unfinished (proper.inner_done takes within other)

/-- What goes on all the same is an item of a mapping, beside another one that the failure belongs to, or that
another item made fail. -/
theorem Failed.beside (failed : u.Failed n) (proper : u.Proper) (takes : u.Takes k frame) :
    ∃ (m : Nat) (x : Invocation) (items : List Nat) (b : Nat), u.calls[m]? = some x ∧ x.progress = .mapping items ∧ b ∈ items ∧
      Within u.calls b k ∧
      ((∃ a ∈ items, a ≠ b ∧ Within u.calls a n) ∨ Within u.calls n m) := by
  obtain ⟨v, held, due, alive, _⟩ := proper.takes takes
  obtain ⟨w, found⟩ := failed.held
  rcases proper.rooted.apart held found (due.unended held) failed.unfinished with outer | inner |
    ⟨m, x, items, a, b, mapping, progress, one, other, distinct, belongs, rest⟩
  · exact absurd takes (failed.silent proper outer)
  · have distinct : n ≠ k := by
      rintro rfl
      exact failed.silent proper .self takes
    cases failed with
    | task found' settled _ =>
      have other : w.task ≠ v.task := by
        intro same
        cases found.symm.trans found'
        rw [same, alive] at settled
        cases settled
      obtain ⟨m, x, items, b, outer, mapping, progress, member, rest⟩ :=
        proper.rooted.mapped_between inner (due.unended held) found held other
      exact ⟨m, x, items, b, mapping, progress, member, rest, Or.inr outer⟩
    | method found' called _ =>
      obtain ⟨a, y, below, parent, rest⟩ := inner.child distinct
      have waits := proper.rooted.waits_for below parent fun done => due.unended held (proper.rooted.done_within rest done)
      obtain ⟨z, above, part⟩ := waits
      cases found'.symm.trans above
      rw [called] at part
      cases part
  · exact ⟨m, x, items, b, mapping, progress, other, rest, Or.inl ⟨a, one, distinct, belongs⟩⟩

theorem undone_advance {task own : Nat} {marks : List Nat} (rooted : Rooted u.calls) (held : u.calls[k]? = some v)
    (mine : v.task = task) {w : Invocation}
    (found : u.calls[n]? = some w) (other : w.task ≠ task) (done : Done (u.advance task own k marks frame values).calls n) :
    Done u.calls n := by
  have still {j : Nat} {x : Invocation} (found : u.calls[j]? = some x) (other : x.task ≠ task) :
      (u.advance task own k marks frame values).calls[j]? = some x := by
    refine held_advance found ?_
    rintro rfl
    cases held.symm.trans found
    exact other mine
  induction done generalizing w with
  | ended after progress =>
    have same := Option.some.inj ((still found other).symm.trans after)
    exact .ended found (same ▸ progress)
  | @finished n result x after progress _ ih =>
    have unchanged := Option.some.inj ((still found other).symm.trans after)
    rw [← unchanged] at progress
    have part : result ∈ w.progress.parts := by
      rw [progress]
      exact List.mem_singleton_self result
    obtain ⟨y, below, _, task⟩ := rooted.parts n w result found part
    have same : y.task = w.task := task (by simp [progress])
    exact .finished found progress (ih below (same ▸ other))

theorem Failed.happen (failed : u.Failed n) (proper : u.Proper) (e : Event) : (u.happen e).Failed n := by
  have enlarged := proper.orderly.enlarges e
  have kept {id : Nat} {fault : Fault} (settled : u.session.schedule.outcome? id = some (.error fault)) :
      (u.session.happen e).schedule.outcome? id = some (.error fault) :=
    (enlarged.settled (by simp [settled])).trans settled
  rcases u.happen_cases e with ⟨task, own, k, marks, frame, rest, values, rfl, turn, worker, same⟩ | ⟨same, _⟩
  · rw [same]
    have takes : u.Takes k frame := ⟨task, own, marks, rest, values, turn, worker⟩
    obtain ⟨m, v, steps, under, left, rfl, sameMarks, held, mine, prepared, _⟩ := proper.turn turn worker
    obtain ⟨rfl, rfl⟩ := List.cons.inj sameMarks
    have alive := ((Session.Stands.turn turn).alive proper.orderly).1.2
    have other : k ≠ n := by
      rintro rfl
      exact failed.silent proper .self takes
    cases failed with
    | @task w fault found settled unfinished =>
      have apart : w.task ≠ task := by
        intro same
        rw [same, alive] at settled
        cases settled
      refine .task (held_advance found other.symm) (kept settled) fun done => ?_
      exact unfinished (undone_advance proper.rooted held mine found apart done)
    | method found called settled => exact .method (held_advance found other.symm) called (kept settled)
  · rw [same]
    cases failed with
    | task found settled unfinished => exact .task found (kept settled) unfinished
    | method found called settled => exact .method found called (kept settled)

theorem Failed.run (failed : u.Failed n) (proper : u.Proper) (events : List Event) : (u.run events).Failed n := by
  induction events generalizing u with
  | nil => exact failed
  | cons e rest ih => exact ih (failed.happen proper e) (proper.happen e)

/-- A step that fails brings an invocation no further than to the call of its method. -/
theorem progress?_fail {s : Session} {count : Nat} {fault : Fault} (fails : (s.takeStep frame values).2 = .fail fault)
    (came : s.progress? count frame values = some p) : ∃ reply, p = .called reply := by
  unfold Session.progress? at came
  split at came
  · exact ⟨_, (Option.some.inj came).symm⟩
  · cases came
  next other => exact absurd fails (other fault)

theorem Proper.fails (proper : u.Proper) {task own : Nat} {marks : List Nat} {rest : List Frame}
    (turn : u.session.turn = some { task, frames := frame :: rest, values }) (worker : u.workers task = some ⟨own, n :: marks⟩)
    {fault : Fault} (fails : (u.session.takeStep frame values).2 = .fail fault) : (u.happen .step).Failed n := by
  obtain ⟨m, v, steps, under, left, rfl, sameMarks, held, mine, prepared, _⟩ := proper.turn turn worker
  obtain ⟨rfl, rfl⟩ := List.cons.inj sameMarks
  have same : u.happen .step = u.advance task own n (List.replicate steps.length n ++ left) frame values := by
    simp only [Undertaking.happen, turn, worker]
  obtain ⟨p, after, came⟩ := self_advance task own (List.replicate steps.length n ++ left) frame values held
  obtain ⟨_, open_, unfinished⟩ := prepared.due.parts
  rw [same]
  refine .task after (mine ▸ Session.failed_step proper.orderly turn fails) fun done => ?_
  rcases came with rfl | came
  · cases done with
    | ended found progress =>
      cases after.symm.trans found
      exact open_ progress
    | finished found progress _ =>
      cases after.symm.trans found
      exact unfinished _ progress
  · obtain ⟨reply, rfl⟩ := progress?_fail fails came
    cases done with
    | ended found progress =>
      cases after.symm.trans found
      cases progress
    | finished found progress _ =>
      cases after.symm.trans found
      cases progress

theorem Proper.further (proper : u.Proper) (held : u.calls[n]? = some v) (e : Event) :
    ∃ w, (u.happen e).calls[n]? = some w ∧ w.parent = v.parent ∧ v.progress.rank ≤ w.progress.rank := by
  rcases u.happen_cases e with ⟨task, own, k, marks, frame, rest, values, rfl, turn, worker, same⟩ | ⟨same, _⟩
  · rw [same]
    by_cases other : n = k
    · subst other
      obtain ⟨v', held', due, _⟩ := proper.takes ⟨task, own, marks, rest, values, turn, worker⟩
      cases held.symm.trans held'
      obtain ⟨p, after, came⟩ := self_advance task own marks frame values held
      refine ⟨_, after, rfl, ?_⟩
      rcases came with rfl | came
      · exact Nat.le_refl _
      · exact Nat.le_of_lt (due.rank came)
    · exact ⟨v, held_advance held other, rfl, Nat.le_refl _⟩
  · rw [same]
    exact ⟨v, held, rfl, Nat.le_refl _⟩

theorem Proper.further_run (proper : u.Proper) (held : u.calls[n]? = some v) (events : List Event) :
    ∃ w, (u.run events).calls[n]? = some w ∧ w.parent = v.parent ∧ v.progress.rank ≤ w.progress.rank := by
  induction events generalizing u v with
  | nil => exact ⟨v, held, rfl, Nat.le_refl _⟩
  | cons e rest ih =>
    obtain ⟨x, after, first, more⟩ := proper.further held e
    obtain ⟨w, last, whole, most⟩ := ih (proper.happen e) after
    exact ⟨w, last, whole.trans first, Nat.le_trans more most⟩

theorem Due.mapped (due : u.Due p frame) (concludes : frame.concludes = true) : p.rank = 2 := by
  cases frame with
  | call target =>
    obtain ⟨items, rfl, _⟩ := due
    rfl
  | place config whole =>
    obtain ⟨items, rfl, _⟩ := due
    rfl
  | _ => cases concludes

theorem progress?_concludes {s : Session} (concludes : frame.concludes = true)
    (fine : ∀ fault, (s.takeStep frame values).2 ≠ .fail fault) (count : Nat) : ∃ p, s.progress? count frame values = some p := by
  cases frame with
  | call target => exact ⟨_, rfl⟩
  | place config whole =>
    rcases s.snd_place config whole values with ⟨fault, failed⟩ | moved
    · exact absurd failed (fine fault)
    · exact ⟨.ended, by simp [Session.progress?, Session.takeStep, moved, Frame.progress?]⟩
  | _ => cases concludes

theorem Proper.once (proper : u.Proper) (takes : u.Takes n frame) (concludes : frame.concludes = true) (events : List Event)
    {again : Frame} (concludesAgain : again.concludes = true) : ¬ ((u.happen .step).run events).Takes n again := by
  intro takesAgain
  have proper' := (proper.happen .step).run events
  obtain ⟨v, held, due, _⟩ := proper.takes takes
  obtain ⟨task, own, marks, rest, values, turn, worker⟩ := takes
  by_cases fails : ∃ fault, (u.session.takeStep frame values).2 = .fail fault
  · obtain ⟨fault, fails⟩ := fails
    exact ((proper.fails turn worker fails).run (proper.happen .step) events).silent proper' .self takesAgain
  · have further := progress?_concludes (s := u.session) concludes (not_exists.mp fails)
    obtain ⟨p, came⟩ := further u.calls.length
    have after : (u.happen .step).calls[n]? = some { v with progress := p } := by
      simp only [Undertaking.happen, turn, worker, calls_advance came, getElem?_advanced_self held]
    obtain ⟨w, last, _, more⟩ := (proper.happen .step).further_run after events
    obtain ⟨w', held', dueAgain, _⟩ := proper'.takes takesAgain
    cases last.symm.trans held'
    have before := due.mapped concludes
    have further := due.rank came
    have again := dueAgain.mapped concludesAgain
    dsimp only at more
    omega

theorem workers_start {session : Session} {task own : Nat} {worker : Worker}
    (works : (start session task).workers own = some worker) : own = task ∧ worker = ⟨0, [0]⟩ := by
  simp only [start] at works
  split at works
  next same => exact ⟨same, (Option.some.inj works).symm⟩
  · cases works

theorem rooted_start (session : Session) (task : Nat) : Rooted (start session task).calls := by
  have first {n : Nat} {v : Invocation} (held : [{ task : Invocation }][n]? = some v) : n = 0 ∧ v = { task } := by
    cases n with
    | zero => exact ⟨rfl, (Option.some.inj held).symm⟩
    | succ n => cases held
  constructor
  case root => exact fun n v held _ => (first held).1
  case linked =>
    intro n v parent held below
    obtain ⟨_, rfl⟩ := first held
    cases below
  case parts =>
    intro n v part held member
    obtain ⟨_, rfl⟩ := first held
    cases member

/-- A task with a single invocation makes an undertaking of its own, wherever it stands. -/
theorem proper_alone {session : Session} {task : Nat} (orderly : session.Orderly session.running)
    (strict : session.schedule.Strict) (inside : task < session.schedule.promises.size)
    (lays : ∀ frames supply, session.Stands task frames supply → (start session task).Lays task 0 frames [0] supply) :
    (start session task).Proper where
  orderly := orderly
  strict := strict
  rooted := rooted_start session task
  inside own worker works := by
    obtain ⟨rfl, _⟩ := workers_start works
    exact inside
  staffed n v items held mapping := by
    cases n with
    | zero =>
      cases held
      cases mapping
    | succ n => cases held
  lays own worker frames supply works stands := by
    obtain ⟨rfl, rfl⟩ := workers_start works
    exact lays frames supply stands

end Undertaking

namespace Session

variable {s : Session}

theorem untouched_step (orderly : s.Orderly s.running) {task : Nat} {frame : Frame} {rest : List Frame} {values : List Value}
    (turn : s.turn = some { task, frames := frame :: rest, values }) (other : ∀ config whole, frame ≠ .place config whole) :
    (s.happen .step).coordinator.created = s.coordinator.created ∧
      (s.happen .step).trace.filter Occurrence.isSituation = s.trace.filter Occurrence.isSituation := by
  have among (t : Session) : t.trace.filter Occurrence.isSituation = t.outline.appeals.filter Occurrence.isSituation := by
    rw [outline, List.filter_filter]
    apply List.filter_congr
    intro o _
    cases situation : o.isSituation with
    | false => rfl
    | true => rw [Occurrence.isAppeal_of_isSituation o situation]; rfl
  have same := outline_happen orderly .step
  have passed : s.milestone? .step = s.passed? task frame values := by simp only [milestone?, turn]
  rw [passed] at same
  cases met : s.passed? task frame values with
  | none =>
    rw [met] at same
    exact ⟨congrArg Outline.created same, by rw [among, among, same]; rfl⟩
  | some k =>
    have silent : k.handover? = none := by
      cases k with
      | place u id config whole values =>
        obtain ⟨rfl, x, final⟩ := passed?_task met rfl
        cases final with
        | enter target => cases met
        | place config whole => exact absurd rfl (other config whole)
      | _ => rfl
    have before := (meets_happen orderly (passed.trans met)).calm.outline
    rw [met, Option.elim_some] at same
    constructor
    · refine (congrArg Outline.created same).trans (k.created_done.trans ?_)
      rw [silent]
      exact congrArg Outline.created before
    · rw [among, among, same, k.appeals_done, List.filter_append, k.shown_situation, silent, before]
      rfl

theorem proper_start (reachable : s.Reachable) {entry : Entry} {config : Value} {id : Nat}
    (accepted : (s.coordinate entry config).2 = .ok id) :
    (Undertaking.start (s.coordinate entry config).1 id).Proper := by
  have orderly := (reachable.happen (.coordinate entry config)).orderly
  rw [show s.happen (.coordinate entry config) = (s.coordinate entry config).1 from rfl] at orderly
  cases mapping : s.store.isMapping config with
  | true =>
    obtain ⟨rfl, started⟩ := coordinate_spawns mapping accepted
    rw [started] at orderly ⊢
    refine Undertaking.proper_alone orderly ((Grows.spawn s _).strict reachable.strict)
      (Schedule.origin?_inside (s.schedule.origin?_spawn _)) fun frames supply stands => ?_
    obtain ⟨rfl, rfl⟩ := stands_spawn reachable.orderly stands
    refine .single rfl rfl (.waiting ?_ fun _ => rfl) .first
    cases entry <;> rfl
  | false =>
    obtain ⟨t, grown, answered⟩ := coordinate_idle mapping accepted
    rw [answered] at accepted orderly ⊢
    cases accepted
    refine Undertaking.proper_alone orderly ((grown.trans (.settled t (.ok []))).strict reachable.strict)
      (answers_settled t _).inside fun frames supply stands => ?_
    have ended : (t.settled (.ok [])).1.schedule.outcome? (t.settled (.ok [])).2 = some (.ok []) :=
      (Schedule.outcome?_add ..).trans (if_pos rfl)
    cases ended.symm.trans (stands.alive orderly).1.2

end Session

namespace Undertaking

theorem session_happen (u : Undertaking) (e : Event) : (u.happen e).session = u.session.happen e := by
  rcases u.happen_cases e with ⟨task, own, n, marks, frame, rest, values, rfl, _, _, same⟩ | ⟨same, _⟩
  · rw [same]
    rfl
  · rw [same]

theorem session_run (u : Undertaking) (events : List Event) : (u.run events).session = u.session.run events := by
  induction events generalizing u with
  | nil => rfl
  | cons e rest ih => exact (ih (u.happen e)).trans (by rw [session_happen]; rfl)

/-- What holds of a step that is taken for an invocation. -/
structure Ordered (u : Undertaking) (n : Nat) (frame : Frame) : Prop where
  /-- What comes before the step has been done well, and the invocation that this one is a part of waits for it. -/
  due : ∃ v, u.calls[n]? = some v ∧ u.Due v.progress frame ∧
    ∀ m, v.parent = some m → ∃ x, u.calls[m]? = some x ∧ n ∈ x.progress.parts
  inner : ∀ k, Within u.calls n k → n ≠ k → Done u.calls k
  state : frame.isState = true → n = 0
  /-- All steps after the first one are for one configuration. -/
  aimed : frame.starts = false → ∀ config, frame.aim? = some config → u.aims n = some config
  once : frame.concludes = true → ∀ more again, again.concludes = true → ¬ ((u.happen .step).run more).Takes n again
  fails : ∀ task rest values fault, u.session.turn = some { task, frames := frame :: rest, values } →
    (u.session.takeStep frame values).2 = .fail fault → (u.happen .step).Failed n
  untouched : (∀ config whole, frame ≠ .place config whole) →
    (u.session.happen .step).coordinator.created = u.session.coordinator.created ∧
      (u.session.happen .step).trace.filter Occurrence.isSituation = u.session.trace.filter Occurrence.isSituation

/-- What is left of an undertaking after an invocation has failed. -/
structure Contains (u : Undertaking) (n : Nat) : Prop where
  failed : u.Failed n
  silent : ∀ k frame, Within u.calls k n → ¬ u.Takes k frame
  unplaced : ∀ k config whole, ¬ u.Takes k (.place config whole)
  beside : ∀ k frame, u.Takes k frame →
    ∃ (m : Nat) (x : Invocation) (items : List Nat) (b : Nat), u.calls[m]? = some x ∧ x.progress = .mapping items ∧
      b ∈ items ∧ Within u.calls b k ∧ ((∃ a ∈ items, a ≠ b ∧ Within u.calls a n) ∨ Within u.calls n m)

namespace Proper

variable {u : Undertaking} (proper : u.Proper) {n : Nat}
include proper

theorem ordered {frame : Frame} (takes : u.Takes n frame) : u.Ordered n frame := by
  obtain ⟨v, held, due, _, state, aimed⟩ := proper.takes takes
  have step := takes
  obtain ⟨task, own, marks, rest, values, turn, worker⟩ := step
  refine ⟨⟨v, held, due, fun m parent => ?_⟩, fun k within other => proper.inner_done takes within other, state, aimed,
    fun concludes more again concludesAgain => proper.once takes concludes more concludesAgain, ?_,
    Session.untouched_step proper.orderly turn⟩
  · exact proper.rooted.waits_for held parent (due.unended held)
  · intro task' rest' values' fault turn' fails
    cases turn.symm.trans turn'
    exact proper.fails turn worker fails

theorem contains (failed : u.Failed n) : u.Contains n := by
  refine ⟨failed, fun k frame within => failed.silent proper within, ?_, fun k frame => failed.beside proper⟩
  intro k config whole takes
  obtain ⟨v, held⟩ := failed.held
  obtain ⟨_, _, _, _, state, _⟩ := proper.takes takes
  cases state rfl
  exact failed.silent proper (proper.rooted.within_root held) takes

end Proper
end Undertaking

end Interaction
