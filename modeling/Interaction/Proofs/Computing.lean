import Interaction.Proofs.Performing
import Interaction.Proofs.Settling

/-! What becomes of the work on an accepted configuration. Each promise of it has a goal, the
values that its configuration evaluates to, and every task comes to its goal from where it
stands, whatever happens in between. -/

namespace Interaction

variable {δ : Type}

/-- What is to come of the promises of some work. -/
structure Plan (δ : Type) where
  /-- What a promise hands on in the end. Those of services have no goal. -/
  goal : Nat → Option (List δ)
  left : Nat → List (Ask δ)

def Deed.callOf? (task : Nat) : Deed → Option (Target × List Value)
  | .call own target params _ => if own = task then some (target, params) else none
  | _ => none

namespace Account

def latest? (a : Account) (task : Nat) : Option (Target × List Value) :=
  a.deeds.reverse.findSome? (Deed.callOf? task)

/-- Whether no call has failed, and what calls have handed on is what is answered to their
parameters. -/
structure Answered (r : Reading δ) (a : Account) : Prop where
  replied : ∀ task target params reply, .call task target params reply ∈ a.deeds →
    (∃ id, reply = .promise id ∧ ∀ outcome, a.session.schedule.outcome? id = some outcome →
      ∃ v, outcome = .ok [v] ∧ r.read v = r.answer target.service target.method (params.map r.read)) ∨
    ∃ frames, reply = .steps frames
  acted : ∀ task ∈ a.family, ∀ action request rest values target params,
    a.session.turn = some { task, frames := .act action request :: rest, values } →
    a.latest? task = some (target, params) → ∃ v, (a.session.act action request).2 = .ok v ∧
      r.read v = r.answer target.service target.method (params.map r.read)
  listed : ∀ task ∈ a.family, ∀ config rest v,
    a.session.turn = some { task, frames := .arrange config :: rest, values := [v] } →
    (a.session.listItems? v).map (List.map r.read) = r.items (r.read v)

/-- How a task comes to its goal from where it stands. -/
inductive Proceeds (r : Reading δ) (c : Coordinator) (d : Store) (plan : Plan δ) (root : Nat) (a : Account) (task : Nat) :
    List Frame → Supply → Option (List δ) → List (Ask δ) → Prop where
  | given {frames : List Frame} {values : List Value} {result : List δ} {asks : List (Ask δ)}
      (performs : Performs r c d frames (values.map r.read) result asks) :
      Proceeds r c d plan root a task frames (.values values) (some result) asks
  | joined {frames : List Frame} {id : Nat} {given result : List δ} {asks : List (Ask δ)} (among : id ∈ a.family)
      (other : id ≠ root) (goal : plan.goal id = some given) (performs : Performs r c d frames given result asks) :
      Proceeds r c d plan root a task frames (.promise id) (some result) asks
  | called {frames : List Frame} {id : Nat} {target : Target} {params : List Value} {result : List δ} {asks : List (Ask δ)}
      (done : .call task target params (.promise id) ∈ a.deeds)
      (performs : Performs r c d frames [r.answer target.service target.method (params.map r.read)] result asks) :
      Proceeds r c d plan root a task frames (.promise id) (some result) asks
  | acting {turns : Nat} {action : Action} {request : Request} {rest : List Frame} {values : List Value} {target : Target}
      {params : List Value} {result : List δ} {asks : List (Ask δ)} (latest : a.latest? task = some (target, params))
      (performs : Performs r c d rest [r.answer target.service target.method (params.map r.read)] result asks) :
      Proceeds r c d plan root a task (Session.lateSteps turns action request ++ rest) (.values values) (some result) asks
  | service {frames : List Frame} {supply : Supply} (late : ∀ frame ∈ frames, frame.isLate = true) :
      Proceeds r c d plan root a task frames supply none []

def Refused (a : Account) (fault : Fault) : Prop :=
  ∃ config whole values, .place config whole values (some fault) ∈ a.deeds

/-- Whether a promise hands on what it is to, unless the factory has refused a situation. -/
def Meets (r : Reading δ) (root : Nat) (entry : Entry) (a : Account) (id : Nat) (result : List δ) (outcome : Outcome) : Prop :=
  (∃ values, outcome = .ok values ∧ values.map r.read = result) ∨
    id = root ∧ entry = .state ∧ ∃ fault, outcome = .error fault ∧ a.Refused fault

/-- What is true of each promise of the work on a configuration. -/
structure Abides (r : Reading δ) (c : Coordinator) (d : Store) (plan : Plan δ) (root : Nat) (entry : Entry) (a : Account)
    (id : Nat) : Prop where
  proceeds : ∀ frames supply, a.session.Stands id frames supply →
    a.Proceeds r c d plan root id frames supply (plan.goal id) (plan.left id)
  ended : ∀ outcome result, a.session.schedule.outcome? id = some outcome → plan.goal id = some result →
    plan.left id = [] ∧ a.Meets r root entry id result outcome
  silent : plan.goal id = none → plan.left id = []
  joined : ∀ members, a.session.schedule.members? id = some members → id ≠ root ∧ plan.left id = [] ∧
    plan.goal id = some (members.flatMap fun member => (plan.goal member).getD []) ∧
    ∀ member ∈ members, member ∈ a.family ∧ member ≠ root ∧ plan.goal member ≠ none
  outside : a.session.schedule.origin? id = some .outside → plan.goal id ≠ none →
    a.session.schedule.outcome? id ≠ none
  bare : a.session.schedule.role? id = some .task → plan.goal id = some [] → id = root ∧ entry = .state

structure Follows (plan next : Plan δ) (a : Account) (e : Event) (b : Account) : Prop where
  session : b.session = a.session.happen e
  family : ∀ id ∈ a.family, id ∈ b.family
  deeds : ∀ deed ∈ a.deeds, deed ∈ b.deeds
  goal : ∀ id ∈ a.family, next.goal id = plan.goal id

variable {r : Reading δ} {c : Coordinator} {d : Store} {plan next : Plan δ} {root : Nat} {entry : Entry} {a b : Account}
  {e : Event} {id : Nat}

theorem Proceeds.later {frames : List Frame} {supply : Supply} {goal : Option (List δ)} {asks : List (Ask δ)}
    (proceeds : a.Proceeds r c d plan root id frames supply goal asks) (follows : Follows plan next a e b)
    (latest : b.latest? id = a.latest? id) : b.Proceeds r c d next root id frames supply goal asks := by
  cases proceeds with
  | given performs => exact .given performs
  | joined among other goal performs =>
    exact .joined (follows.family _ among) other ((follows.goal _ among).trans goal) performs
  | called done performs => exact .called (follows.deeds _ done) performs
  | acting known performs => exact .acting (latest.trans known) performs
  | service late => exact .service late

theorem Proceeds.of_service {frames : List Frame} {supply : Supply} {asks : List (Ask δ)}
    (proceeds : a.Proceeds r c d plan root id frames supply none asks) :
    (∀ frame ∈ frames, frame.isLate = true) ∧ asks = [] := by
  cases proceeds with
  | service late => exact ⟨late, rfl⟩

theorem Meets.later {result : List δ} {outcome : Outcome} (meets : a.Meets r root entry id result outcome)
    (follows : Follows plan next a e b) : b.Meets r root entry id result outcome := by
  rcases meets with read | ⟨same, state, fault, failed, config, whole, values, done⟩
  · exact Or.inl read
  · exact Or.inr ⟨same, state, fault, failed, config, whole, values, follows.deeds _ done⟩

theorem Meets.values {result : List δ} {values : List Value} (meets : a.Meets r root entry id result (.ok values)) :
    values.map r.read = result := by
  rcases meets with ⟨_, same, read⟩ | ⟨_, _, _, same, _⟩
  · cases same
    exact read
  · cases same

theorem Meets.other {result : List δ} {fault : Fault} (meets : a.Meets r root entry id result (.error fault)) : id = root := by
  rcases meets with ⟨_, same, _⟩ | ⟨same, _⟩
  · cases same
  · exact same

theorem Proceeds.supplied {frames : List Frame} {before after : Supply} {goal : Option (List δ)} {asks : List (Ask δ)}
    (proceeds : a.Proceeds r c d plan root id frames before goal asks) (answered : a.Answered r)
    (abides : ∀ id ∈ a.family, a.Abides r c d plan root entry id) (supplied : a.session.Supplied before after) :
    a.Proceeds r c d plan root id frames after goal asks := by
  rcases supplied with rfl | ⟨promise, values, rfl, ended, rfl⟩
  · exact proceeds
  cases proceeds with
  | joined among other goal performs =>
    have meets := ((abides promise among).ended _ _ ended goal).2
    rw [← meets.values] at performs
    exact .given performs
  | called done performs =>
    rcases answered.replied _ _ _ _ done with ⟨_, same, fine⟩ | ⟨_, same⟩
    · cases same
      obtain ⟨v, same, read⟩ := fine _ ended
      cases same
      rw [← read] at performs
      exact .given performs
    · cases same
  | service late => exact .service late

/-- Nobody who comes to a goal is told of a failure. -/
theorem Proceeds.no_failure {frames : List Frame} {promise : Nat} {result : List δ} {asks : List (Ask δ)} {fault : Fault}
    (proceeds : a.Proceeds r c d plan root id frames (.promise promise) (some result) asks) (answered : a.Answered r)
    (abides : ∀ id ∈ a.family, a.Abides r c d plan root entry id) :
    a.session.schedule.outcome? promise ≠ some (.error fault) := by
  intro failed
  cases proceeds with
  | joined among other goal performs => exact other ((abides promise among).ended _ _ failed goal).2.other
  | called done performs =>
    rcases answered.replied _ _ _ _ done with ⟨_, same, fine⟩ | ⟨_, same⟩
    · cases same
      obtain ⟨_, same, _⟩ := fine _ failed
      cases same
    · cases same

theorem read_gathered {s : Session} {members : List Nat}
    (each : ∀ member ∈ members, ∃ values result, s.schedule.outcome? member = some (.ok values) ∧
      plan.goal member = some result ∧ values.map r.read = result) :
    (s.schedule.gathered members).map r.read = members.flatMap fun member => (plan.goal member).getD [] := by
  rw [Schedule.gathered, List.map_flatMap]
  apply List.flatMap_congr
  intro member among
  obtain ⟨values, result, ended, goal, read⟩ := each member among
  rw [ended, goal]
  exact read

/-- A promise that is settled otherwise than by a step of its own task hands on what it is to. -/
theorem Abides.settles (abides : a.Abides r c d plan root entry id) (others : ∀ id ∈ a.family, a.Abides r c d plan root entry id)
    (answered : a.Answered r) (idle : ∀ frame rest values, e = .step →
      a.session.turn ≠ some { task := id, frames := frame :: rest, values }) {outcome : Outcome}
    (unsettled : a.session.schedule.outcome? id = none) (settles : a.session.Settles e id outcome) {result : List δ}
    (goal : plan.goal id = some result) : plan.left id = [] ∧ a.Meets r root entry id result outcome := by
  cases settles with
  | @ended values turn =>
    have proceeds := abides.proceeds _ _ (.turn turn)
    rw [goal] at proceeds
    generalize steps : ([] : List Frame) = frames at proceeds
    generalize left : plan.left id = asks at proceeds ⊢
    cases proceeds with
    | given performs =>
      subst steps
      cases performs
      exact ⟨rfl, Or.inl ⟨values, rfl, rfl⟩⟩
    | acting => simp [Session.lateSteps] at steps
  | failed isStep turn => exact absurd turn (idle _ _ _ isStep)
  | told stands failed =>
    have proceeds := abides.proceeds _ _ stands
    rw [goal] at proceeds
    exact absurd failed (proceeds.no_failure answered others)
  | joined join whole =>
    obtain ⟨_, left, same, members⟩ := abides.joined _ join
    refine ⟨left, Or.inl ⟨_, rfl, ?_⟩⟩
    cases goal.symm.trans same
    rw [whole.1]
    apply read_gathered
    intro member among
    obtain ⟨inside, other, known⟩ := members member among
    obtain ⟨given, goal⟩ := Option.ne_none_iff_exists'.mp known
    obtain ⟨handed, ended⟩ := Option.ne_none_iff_exists'.mp (whole.2 member among)
    rcases ((others member inside).ended _ _ ended goal).2 with ⟨values, rfl, read⟩ | ⟨same, _⟩
    · exact ⟨values, given, ended, goal, read⟩
    · exact absurd same other
  | broken join among failed =>
    obtain ⟨_, _, _, members⟩ := abides.joined _ (Schedule.members?_role join)
    obtain ⟨inside, other, known⟩ := members _ among
    obtain ⟨given, goal⟩ := Option.ne_none_iff_exists'.mp known
    exact absurd ((others _ inside).ended _ _ failed goal).2.other other
  | outside origin => exact absurd unsettled (abides.outside origin (by simp [goal]))

theorem Abides.later (orderly : a.session.Orderly a.session.running) (inside : id < a.session.schedule.promises.size)
    (others : ∀ id ∈ a.family, a.Abides r c d plan root entry id) (answered : a.Answered r)
    (follows : Follows plan next a e b) (among : id ∈ a.family) (left : next.left id = plan.left id)
    (latest : b.latest? id = a.latest? id) (idle : ∀ frame rest values, e = .step →
      a.session.turn ≠ some { task := id, frames := frame :: rest, values }) : b.Abides r c d next root entry id := by
  have abides := others id among
  have enlarged := orderly.enlarges e
  have goal := follows.goal id among
  rw [← follows.session] at enlarged
  constructor
  case proceeds =>
    intro frames supply stands
    rw [follows.session] at stands
    rcases Session.stands_happen orderly e inside stands with ⟨before, stood, supplied⟩ | ⟨isStep, frame, rest, values, turn, _⟩
    · rw [goal, left]
      exact ((abides.proceeds frames before stood).supplied answered others supplied).later follows latest
    · exact absurd turn (idle frame rest values isStep)
  case ended =>
    intro outcome result ended known
    rw [goal] at known
    rw [left]
    have before : plan.left id = [] ∧ a.Meets r root entry id result outcome := by
      by_cases open_ : a.session.schedule.outcome? id = none
      · rw [follows.session] at ended
        exact abides.settles others answered idle open_ (Session.settles_happen orderly e inside open_ ended) known
      · exact abides.ended outcome result ((enlarged.settled open_).symm.trans ended) known
    exact ⟨before.1, before.2.later follows⟩
  case silent =>
    intro none
    rw [left]
    exact abides.silent (goal.symm.trans none)
  case joined =>
    intro members joined
    rw [enlarged.members inside] at joined
    obtain ⟨other, nothing, whole, parts⟩ := abides.joined members joined
    refine ⟨other, left.trans nothing, ?_, ?_⟩
    · rw [goal, whole, List.flatMap_congr]
      intro member isMember
      rw [follows.goal member (parts member isMember).1]
    · intro member isMember
      obtain ⟨old, another, known⟩ := parts member isMember
      exact ⟨follows.family member old, another, by rwa [follows.goal member old]⟩
  case outside =>
    intro origin known
    have role := enlarged.role inside
    rw [← Schedule.role?_outside, role, Schedule.role?_outside] at origin
    have settled := abides.outside origin (by rwa [← goal])
    rwa [enlarged.settled settled]
  case bare =>
    intro task nothing
    rw [enlarged.role inside] at task
    exact abides.bare task (goal.symm.trans nothing)

end Account

end Interaction
