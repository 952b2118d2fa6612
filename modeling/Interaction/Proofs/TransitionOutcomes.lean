import Interaction.Proofs.Consulting

/-! What the behaviour of a transition with a configuration of its own ends with: with the failure of
what that was answered with, or else with what the behaviour of the target ends with. -/

namespace Interaction

/-- What behaviour ends with that was asked for and answered at once, as far as it has ended. -/
def Session.ending? (s : Session) : Except Fault (Option Nat) → Option Outcome
  | .error fault => some (.error fault)
  | .ok none => some (.ok [])
  | .ok (some id) => s.schedule.outcome? id

/-- What is answered when a state is entered. -/
def Session.entered (s : Session) (target : Value) : Except Fault (Option Nat) :=
  (s.executeState (s.store.field target "do")).2

theorem Session.takeStep_enterState (s : Session) (target : Value) (values : List Value) :
    s.takeStep (.enterState target) values = ((s.executeState (s.store.field target "do")).1, match s.entered target with
      | .error fault => .fail fault
      | .ok none => .go [] []
      | .ok (some id) => .await id []) := by
  rw [Session.takeStep, Session.entered]
  cases s.executeState (s.store.field target "do") with
  | mk t answer => obtain fault | (_ | id) := answer <;> rfl

namespace Chronicle

/-- What a task that a transition has left behind ends with. -/
inductive Verdict (c : Chronicle) (f : Follower) (outcome : Outcome) : Prop where
  | unanswered (none : f.answer = none) (same : outcome = .error (.notAwaitable Scalar.null.kind))
  | failed {id : Nat} {fault : Fault} (answered : f.answer = some id)
      (failed : c.session.schedule.outcome? id = some (.error fault)) (same : outcome = .error fault)
  | entered {w : Session} (enters : .enter w f.task f.target ∈ c.milestones)
      (ends : c.session.ending? (w.entered f.target) = some outcome)

variable {c : Chronicle} {f : Follower} {o : Occasion} {k : Milestone} {outcome : Outcome}

theorem ending_occur (orderly : c.session.Orderly c.session.running) (o : Occasion) {answer : Except Fault (Option Nat)}
    (ends : c.session.ending? answer = some outcome) : (c.occur o).session.ending? answer = some outcome := by
  obtain fault | (_ | id) := answer
  · exact ends
  · exact ends
  · exact Session.outcome_kept orderly o ends

theorem enters_occur (enters : k ∈ c.milestones) (o : Occasion) : k ∈ (c.occur o).milestones :=
  List.mem_append_left _ enters

theorem Verdict.occur (verdict : c.Verdict f outcome) (orderly : c.session.Orderly c.session.running) (o : Occasion) :
    (c.occur o).Verdict f outcome := by
  cases verdict with
  | unanswered none same => exact .unanswered none same
  | failed answered failed same => exact .failed answered (Session.outcome_kept orderly o failed) same
  | entered enters ends => exact .entered (enters_occur enters o) (ending_occur orderly o ends)

/-- What a task waits for that has entered a state, or what it has been given. -/
inductive Waits (s : Session) (answer : Except Fault (Option Nat)) : Supply → Prop where
  | promise {id : Nat} (answered : answer = .ok (some id)) : Waits s answer (.promise id)
  | given {values : List Value} (ends : s.ending? answer = some (.ok values)) : Waits s answer (.values values)

theorem Waits.supplied {s : Session} {answer : Except Fault (Option Nat)} {before after : Supply}
    (waits : Waits s answer before) (supplied : s.Supplied before after) : Waits s answer after := by
  rcases supplied with rfl | ⟨id, values, rfl, settled, rfl⟩
  · exact waits
  · cases waits with
    | promise answered => exact .given (by rw [answered]; exact settled)

theorem Waits.occur {answer : Except Fault (Option Nat)} {supply : Supply} (waits : Waits c.session answer supply)
    (orderly : c.session.Orderly c.session.running) (o : Occasion) : Waits (c.occur o).session answer supply := by
  cases waits with
  | promise answered => exact .promise answered
  | given ends => exact .given (ending_occur orderly o ends)

/-- The way of a task that a transition leaves behind, to what it ends with. -/
structure Concludes (c : Chronicle) (f : Follower) : Prop where
  follows : c.Follows f
  last : ∀ supply, c.session.Stands f.task [] supply →
    ∃ w, .enter w f.task f.target ∈ c.milestones ∧ Waits c.session (w.entered f.target) supply
  ended : ∀ outcome, c.session.schedule.outcome? f.task = some outcome → c.Verdict f outcome

theorem Concludes.idle (concludes : c.Concludes f) (orderly : c.session.Orderly c.session.running)
    (idle : ¬ c.session.Steps o f.task) : (c.occur o).Concludes f := by
  have errand := concludes.follows.errand
  constructor
  case follows => exact concludes.follows.occur orderly o
  case last =>
    intro supply stands
    obtain ⟨before, stood, supplied⟩ := Session.stands_occur orderly o errand.inside idle stands
    obtain ⟨w, enters, waits⟩ := concludes.last before stood
    exact ⟨w, enters_occur enters o, (waits.supplied supplied).occur orderly o⟩
  case ended =>
    intro outcome settled
    rcases Session.settles_idle orderly errand.role idle settled with before | ⟨values, stands, rfl⟩ |
      ⟨frames, promise, fault, stands, failed, rfl⟩
    · exact (concludes.ended outcome before).occur orderly o
    · obtain ⟨w, enters, waits⟩ := concludes.last _ stands
      cases waits with
      | given ends => exact Verdict.occur (.entered enters ends) orderly o
    · rcases concludes.follows.stands _ _ stands with ⟨_, given⟩ | rfl | ⟨_, id, answered, waited | ⟨⟨_, given⟩, _⟩⟩
      · cases given
      · obtain ⟨w, enters, waits⟩ := concludes.last _ stands
        cases waits with
        | promise answered => exact Verdict.occur (.entered enters (by rw [answered]; exact failed)) orderly o
      · cases waited
        exact Verdict.occur (.failed answered failed rfl) orderly o
      · cases given

/-- The first step ends the task only if what the transition was answered cannot be waited for, or has
failed. -/
theorem Concludes.wait (concludes : c.Concludes f) (orderly : c.session.Orderly c.session.running) {frame : Frame}
    {rest : List Frame} {values : List Value} (turn : c.session.turn = some { task := f.task, frames := frame :: rest, values })
    (first : frame :: rest = f.frames) : (c.occur (.event .step)).Concludes f := by
  obtain ⟨rfl, rfl⟩ := List.cons.inj first
  constructor
  case follows => exact concludes.follows.occur orderly _
  case last =>
    intro supply stands
    obtain ⟨next, _, _, same, _⟩ := Session.stands_own orderly turn stands
    exact absurd same.symm (by simp)
  case ended =>
    intro outcome settled
    obtain ⟨fault, rfl, failed⟩ := Session.settles_step orderly turn settled
    cases answered : f.answer with
    | none =>
      rw [answered] at failed
      rcases failed with failed | ⟨_, _, waits, _⟩
      · cases failed
        exact .unanswered answered rfl
      · cases waits
    | some id =>
      rw [answered] at failed
      rcases failed with failed | ⟨promise, next, waits, failed⟩
      · cases failed
      · cases waits
        exact .failed answered (Session.outcome_kept orderly _ failed) rfl

/-- The second step enters the target, and the task ends as the behaviour of that does. -/
theorem Concludes.enter (concludes : c.Concludes f) (orderly : c.session.Orderly c.session.running) {values : List Value}
    (turn : c.session.turn = some { task := f.task, frames := [.enterState f.target], values }) :
    (c.occur (.event .step)).Concludes f := by
  have enters : .enter c.session f.task f.target ∈ (c.occur (.event .step)).milestones := by
    rw [occur, Session.met?_step turn]
    exact List.mem_append_right _ (List.mem_singleton_self _)
  have taken := c.session.takeStep_enterState f.target values
  -- What is settled when the state is entered stays so.
  have later {id : Nat} {outcome : Outcome}
      (settled : (c.session.takeStep (.enterState f.target) values).1.schedule.outcome? id = some outcome) :
      (c.occur (.event .step)).session.schedule.outcome? id = some outcome :=
    ((Session.enlarges_step orderly turn).settled (by simp [settled])).trans settled
  constructor
  case follows => exact concludes.follows.occur orderly _
  case last =>
    intro supply stands
    obtain ⟨next, before, stand, _, supplied⟩ := Session.stands_own orderly turn stands
    refine ⟨c.session, enters, ?_⟩
    rw [taken] at stand
    cases answered : c.session.entered f.target with
    | error fault =>
      rw [answered] at stand
      cases stand
    | ok answer =>
      rw [answered] at stand
      cases answer with
      | none =>
        cases stand
        rcases supplied with rfl | ⟨_, _, waited, _⟩
        · exact .given rfl
        · cases waited
      | some id =>
        cases stand
        rcases supplied with rfl | ⟨promise, given, waited, settled, rfl⟩
        · exact .promise rfl
        · cases waited
          exact .given (later settled)
  case ended =>
    intro outcome settled
    obtain ⟨fault, rfl, failed⟩ := Session.settles_step orderly turn settled
    refine .entered enters ?_
    cases answered : c.session.entered f.target with
    | error other =>
      rw [taken, answered] at failed
      rcases failed with failed | ⟨_, _, waits, _⟩
      · cases failed
        rfl
      · cases waits
    | ok answer =>
      have move := congrArg Prod.snd taken
      rw [answered] at move
      cases answer with
      | none => rcases failed with failed | ⟨_, _, waits, _⟩ <;> cases move.symm.trans ‹_›
      | some id =>
        rcases failed with failed | ⟨promise, next, waits, failed⟩
        · cases move.symm.trans failed
        · cases move.symm.trans waits
          exact later failed

theorem Concludes.occur (concludes : c.Concludes f) (orderly : c.session.Orderly c.session.running) (o : Occasion) :
    (c.occur o).Concludes f := by
  by_cases idle : c.session.Steps o f.task
  · obtain ⟨rfl, frame, rest, values, turn⟩ := idle
    rcases concludes.follows.stands _ _ (.turn turn) with ⟨first, _⟩ | none | ⟨second, _⟩
    · exact concludes.wait orderly turn first
    · cases none
    · rw [second] at turn
      exact concludes.enter orderly turn
  · exact concludes.idle orderly idle

theorem Concludes.start (dated : c.Dated) (orderly : c.session.Orderly c.session.running)
    (met : c.session.met? o = some k) (left : k.follower? = some f) : (c.occur o).Concludes f := by
  obtain ⟨follows, none, tracked, new⟩ := Follows.start dated orderly met left
  obtain ⟨queued, held⟩ : .run f.task ∈ (c.occur o).session.schedule.queue ∧
      (c.occur o).session.schedule.origin? f.task = some (.task f.frames) := by
    cases o with
    | event e => exact (Session.follower_born orderly met left).2.2
    | answering state transition => cases met
    | furnish factory => cases met
  have later := orderly.occur o
  refine ⟨follows, fun supply stands => ?_, fun outcome settled => ?_⟩
  · cases ((Session.stands_queued later queued held).mp stands).1
  · cases ((Session.Stands.queued queued held).alive later).1.2.symm.trans settled

theorem Concludes.course (concludes : c.Concludes f) (orderly : c.session.Orderly c.session.running)
    (occasions : List Occasion) : (c.course occasions).Concludes f :=
  (along orderly (P := fun c => c.Concludes f) concludes (fun _ o orderly concludes => concludes.occur orderly o) occasions).2

end Chronicle

end Interaction
