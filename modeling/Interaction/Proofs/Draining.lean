import Interaction.Proofs.BehaviorWaiters

/-! Waiting until the behaviour of all transitions has ended. When that has been waited for, all
work of a transition is over, unless a join among it failed while some member went on: the
work that such members do later is waited for by nobody. -/

namespace Interaction

namespace Session

variable {s : Session} {task id root : Nat}

theorem mem_awaited (member : id ∈ s.awaited task) :
    ∃ rest, s.schedule.origin? task = some (.task (.await id :: rest)) := by
  unfold awaited at member
  split at member
  next first rest held =>
    rw [List.mem_singleton] at member
    subst member
    refine ⟨rest, ?_⟩
    unfold Schedule.frames at held
    split at held
    next frames origin => exact origin.trans (by rw [held])
    · cases held
  · cases member

theorem Begun.stands (begun : s.Begun task) (orderly : s.Orderly s.running) {frames : List Frame} {supply : Supply}
    (stands : s.Stands task frames supply) : ∀ frame ∈ frames, frame.isWork = true := by
  obtain ⟨_, steps, held⟩ := stands.alive orderly
  have queued := (begun.ready steps held).1
  cases stands with
  | turn turn =>
    have schedule := orderly.schedule
    rw [running, turn] at schedule
    exact absurd (Schedule.mem_wakes.mpr (Or.inl queued)) schedule.running_not_woken
  | queued _ own => exact (begun.ready frames own).2
  | waiting noticed _ => exact False.elim (orderly.schedule.queued_not_noticed queued noticed)

def behaving (s : Session) (root : Nat) : Account :=
  { session := s, family := root :: s.awaited root }

theorem Launched.begun (launched : s.Launched root) : ∀ id ∈ (s.behaving root).family, s.Begun id := by
  intro id member
  rcases List.mem_cons.mp member with rfl | first
  · exact launched.own
  · exact launched.first id first

theorem Launched.tended (launched : s.Launched root) (orderly : s.Orderly s.running) : (s.behaving root).Tended root where
  orderly := orderly
  inside id member := (launched.begun id member).inside
  work id member frames supply stands := (launched.begun id member).stands orderly stands
  joined join member members same := by
    cases (launched.begun join member).single.symm.trans same
  held id member _ := by
    rcases List.mem_cons.mp member with rfl | first
    · exact Or.inl rfl
    · obtain ⟨rest, held⟩ := mem_awaited first
      have queued := (launched.own.ready _ held).1
      refine Or.inr ⟨id, member, Or.inl rfl, Or.inr ⟨root, List.mem_cons_self .., Or.inr rfl, ?_⟩⟩
      exact .next (.queued queued held)

end Session

namespace Account

def Finished (a : Account) : Prop :=
  ∀ id ∈ a.family, a.session.schedule.outcome? id ≠ none

/-- Whether a join has failed while one of its members goes on. -/
def Abandons (a : Account) : Prop :=
  ∃ join ∈ a.family, ∃ members fault, a.session.schedule.members? join = some members ∧
    a.session.schedule.outcome? join = some (.error fault) ∧
      ∃ member ∈ members, a.session.schedule.outcome? member = none

/-- All work is over once the first promise is settled, unless some is abandoned. -/
theorem Tended.finished_iff {root : Nat} {a : Account} (tended : a.Tended root)
    (ended : a.session.schedule.outcome? root ≠ none) : a.Finished ↔ ¬ a.Abandons := by
  constructor
  · rintro finished ⟨join, among, members, fault, joined, _, member, isMember, open_⟩
    exact finished member (tended.joined join among members joined member isMember) open_
  · intro kept
    apply tended.complete ended
    intro join among members fault joined failed member isMember open_
    exact kept ⟨join, among, members, fault, joined, failed, member, isMember, open_⟩

end Account

namespace Session

/-- When a drain returns, the promise of the behaviour of every transition before it is settled.
All work of the behaviour is over if and only if no join among it has failed while one of its
members goes on; and then nothing more is ever done for it. -/
theorem drain_complete {s : Session} (reachable : s.Reachable) (e : Event) {root : Nat} (untracked : root ∉ s.tracked)
    (tracked : root ∈ (s.happen e).tracked) (before during : List Event) {task : Nat} {rest : List Frame}
    {first last : List Value}
    (called : (((s.happen e).behaving root).run before).session.turn =
      some { task, frames := .drain :: rest, values := first })
    (returned : ((((s.happen e).behaving root).run before).run during).session.turn =
      some { task, frames := rest, values := last }) :
    let done := (((s.happen e).behaving root).run before).run during
    done.session.schedule.outcome? root ≠ none ∧ (done.Finished ↔ ¬ done.Abandons) ∧
      (done.Finished → ∀ after, (done.run after).family = done.family ∧ (done.run after).deeds = done.deeds) := by
  have orderly := (reachable.happen e).orderly
  have launched := ((tracked_happen reachable.orderly e).2 root tracked).resolve_left untracked
  have tended := ((launched.tended orderly).run before).run during
  have ended : ((((s.happen e).behaving root).run before).run during).session.schedule.outcome? root ≠ none := by
    simp only [Account.session_run] at called returned ⊢
    exact drained orderly tracked before during called returned
  exact ⟨ended, tended.finished_iff ended, fun finished after => tended.rest finished after⟩

/-- A machine that a transition leads out of, whose call has two parameters: each of them comes
from a service that answers later, and the second one is noted then. -/
private def joining : Session where
  store := { cells := #[
    .map [(.text "name", .text "A"), (.text "events", .tuple [.ref 1])],
    .map [(.text "on", .text "go"), (.text "goto", .text "B"), (.text "do", .ref 2)],
    .map [(.text "name", .text "join"), (.text "parameters", .tuple [.int 1, .int 2]),
      (.text "parameterMapping", .tuple [.ref 3, .ref 4])],
    .map [(.text "name", .text "slow")],
    .map [(.text "name", .text "slow"), (.text "resultMapping", .ref 5)],
    .map [(.text "name", .text "note")],
    .map [(.text "name", .text "B")]] }
  behavior := .coordinated
  coordinator :=
    { services := #[{ nature := { kind := "Service" }, provision := .listed, execution := .wrapped,
                      methods := [{ name := .text "slow", label := "slow", script := { action := .defer } },
                        { name := .text "note", label := "note", script := { action := .echo } },
                        { name := .text "join", label := "join", script := { action := .echo } }] }]
      registry := [("", 0)] }
  machine := some { index := [(.text "A", .ref 0), (.text "B", .ref 6)], current := some (.ref 0), running := true }

private def joined : Account :=
  ((joining.happen (.fire (.text "go"))).behaving 1).run (.drain :: List.replicate 6 .step)

private theorem joining_reachable : joining.Reachable := ⟨joining, [], ⟨rfl, rfl, rfl, rfl, rfl⟩, rfl⟩

private def failingLast : List Event :=
  List.replicate 11 .step ++ .answer 1 (.ok [.int 7]) :: List.replicate 8 .step ++
    .answer 0 (.error (.raised .runtime "rejected")) :: List.replicate 9 .step

private def failingFirst : List Event :=
  List.replicate 11 .step ++ .answer 0 (.error (.raised .runtime "rejected")) :: List.replicate 9 .step

set_option maxRecDepth 4000 in
theorem failing_last_complete :
    joining.Reachable ∧ 1 ∉ joining.tracked ∧ 1 ∈ (joining.happen (.fire (.text "go"))).tracked ∧
      joined.session.turn = some { task := 2, frames := [.drain], values := [] } ∧
      (joined.run failingLast).session.turn = some { task := 2, frames := [], values := [] } ∧
      ¬ (joined.run failingLast).Abandons ∧ ∀ after, ((joined.run failingLast).run after).deeds.length = 7 := by
  have untracked : 1 ∉ joining.tracked := by simp [joining]
  have tracked : 1 ∈ (joining.happen (.fire (.text "go"))).tracked := List.mem_singleton_self 1
  have called : joined.session.turn = some { task := 2, frames := [.drain], values := [] } := rfl
  have returned : (joined.run failingLast).session.turn = some { task := 2, frames := [], values := [] } := rfl
  obtain ⟨_, complete, nothing⟩ := drain_complete joining_reachable (.fire (.text "go")) untracked tracked
    (.drain :: List.replicate 6 .step) failingLast called returned
  have finished : (joined.run failingLast).Finished := by
    have all : ((joined.run failingLast).family.all fun id =>
        ((joined.run failingLast).session.schedule.outcome? id).isSome) = true := rfl
    intro id member none
    have some := List.all_eq_true.mp all id member
    simp [none] at some
  refine ⟨joining_reachable, untracked, tracked, called, returned, complete.mp finished, ?_⟩
  intro after
  exact (congrArg List.length (nothing finished after).2).trans rfl

set_option maxRecDepth 4000 in
/-- A drain returns although a service has not answered yet, and when it answers, what it hands on
is noted. -/
theorem failing_first_abandons :
    joining.Reachable ∧ 1 ∉ joining.tracked ∧ 1 ∈ (joining.happen (.fire (.text "go"))).tracked ∧
      joined.session.turn = some { task := 2, frames := [.drain], values := [] } ∧
      (joined.run failingFirst).session.turn = some { task := 2, frames := [], values := [] } ∧
      ¬ (joined.run failingFirst).Finished ∧ (joined.run failingFirst).deeds.length = 5 ∧
      ∃ target reply, ((joined.run failingFirst).run (.answer 1 (.ok [.int 7]) :: List.replicate 6 .step)).deeds[6]? =
        some (.call 4 target [.int 7] reply) ∧ target.method = "note" := by
  have left : 4 ∈ (joined.run failingFirst).family := List.mem_of_elem_eq_true rfl
  have open_ : (joined.run failingFirst).session.schedule.outcome? 4 = none := rfl
  refine ⟨joining_reachable, by simp [joining], List.mem_singleton_self 1, rfl, rfl,
    fun finished => finished 4 left open_, rfl, _, _, rfl, rfl⟩

end Session

end Interaction
