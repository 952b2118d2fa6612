import Interaction.Proofs.Computing

/-! What a step of a task leaves of what was to come of it. A task goes on by itself, waits for
the answer to a call, or starts a task for each of its parameters; each time its goal and what it
is to ask are shared out between the task and what it starts. -/

namespace Interaction

variable {δ : Type}

/-- The plan after a step of a task: what that is still to ask, and what is to come of the
promises that the step starts. -/
def Plan.grow (plan : Plan δ) (size own : Nat) (more : List (Ask δ)) (goal : Nat → Option (List δ))
    (left : Nat → List (Ask δ)) : Plan δ where
  goal id := if id < size then plan.goal id else goal (id - size)
  left id := if id < size then if id = own then more else plan.left id else left (id - size)

theorem Plan.goal_grow (plan : Plan δ) (size own : Nat) (more : List (Ask δ)) (goal : Nat → Option (List δ))
    (left : Nat → List (Ask δ)) (index : Nat) : (plan.grow size own more goal left).goal (size + index) = goal index := by
  rw [grow]
  dsimp only
  rw [if_neg (by omega), Nat.add_sub_cancel_left]

theorem Plan.left_grow (plan : Plan δ) (size own : Nat) (more : List (Ask δ)) (goal : Nat → Option (List δ))
    (left : Nat → List (Ask δ)) (index : Nat) : (plan.grow size own more goal left).left (size + index) = left index := by
  rw [grow]
  dsimp only
  rw [if_neg (by omega), Nat.add_sub_cancel_left]

/-- The plan after a step that maps parameters side by side, each of them to one part. -/
def Plan.fan (plan : Plan δ) (size own : Nat) (more : List (Ask δ)) (parts : List (δ × List (Ask δ))) : Plan δ :=
  plan.grow size own more (fun index => some ((parts[index]?.map fun part => [part.1]).getD (parts.map Prod.fst)))
    fun index => (parts[index]?.map Prod.snd).getD []

theorem Plan.goal_fan (plan : Plan δ) (size own : Nat) (more : List (Ask δ)) (parts : List (δ × List (Ask δ))) (index : Nat) :
    (plan.fan size own more parts).goal (size + index) =
      some ((parts[index]?.map fun part => [part.1]).getD (parts.map Prod.fst)) :=
  goal_grow ..

theorem Plan.left_fan (plan : Plan δ) (size own : Nat) (more : List (Ask δ)) (parts : List (δ × List (Ask δ))) (index : Nat) :
    (plan.fan size own more parts).left (size + index) = (parts[index]?.map Prod.snd).getD [] :=
  left_grow ..

/-- What is taken from parts that are numbered from a first number on. -/
theorem flatMap_parts {α β : Type} (parts : List α) (f : Option α → List β) (size : Nat) :
    (List.range' size parts.length).flatMap (fun id => f parts[id - size]?) = parts.flatMap fun part => f (some part) := by
  induction parts generalizing size with
  | nil => rfl
  | cons first rest ih =>
    rw [List.length_cons, List.range'_succ, List.flatMap_cons, List.flatMap_cons, ← ih (size + 1), Nat.sub_self]
    congr 1
    apply List.flatMap_congr
    intro id member
    obtain ⟨index, rfl⟩ := Nat.exists_eq_add_of_le (List.mem_range'_1.mp member).1
    rw [show size + 1 + index - size = index + 1 by omega, show size + 1 + index - (size + 1) = index by omega,
      List.getElem?_cons_succ]

/-- Together, the tasks that map parameters come to what these are mapped to. -/
theorem Plan.goals_fan (plan : Plan δ) (size own : Nat) (more : List (Ask δ)) (parts : List (δ × List (Ask δ))) :
    ((List.range' size parts.length).flatMap fun id => ((plan.fan size own more parts).goal id).getD []) =
      parts.map Prod.fst := by
  rw [List.map_eq_flatMap]
  refine Eq.trans (List.flatMap_congr ?_)
    (flatMap_parts parts (fun part => (part.map fun part => [part.1]).getD []) size)
  intro id member
  obtain ⟨low, high⟩ := List.mem_range'_1.mp member
  obtain ⟨index, rfl⟩ := Nat.exists_eq_add_of_le low
  rw [goal_fan, Nat.add_sub_cancel_left, List.getElem?_eq_getElem (by omega)]
  rfl

theorem Plan.lefts_fan (plan : Plan δ) (size own : Nat) (more : List (Ask δ)) (parts : List (δ × List (Ask δ))) :
    (List.range' size (parts.length + 1)).flatMap (plan.fan size own more parts).left = parts.flatMap Prod.snd := by
  have last : (plan.fan size own more parts).left (size + parts.length) = [] := by
    rw [left_fan, List.getElem?_eq_none (Nat.le_refl _)]
    rfl
  rw [List.range'_1_concat, List.flatMap_append, List.flatMap_singleton, last, List.append_nil]
  refine Eq.trans (List.flatMap_congr ?_)
    (flatMap_parts parts (fun part => (part.map Prod.snd).getD []) size)
  intro id member
  obtain ⟨index, rfl⟩ := Nat.exists_eq_add_of_le (List.mem_range'_1.mp member).1
  rw [left_fan, Nat.add_sub_cancel_left]

namespace Account

def stepped (a : Account) (own : Nat) (frame : Frame) (values : List Value) : Account where
  session := a.session.happen .step
  family := a.family ++ a.session.offspring frame values
  deeds := a.deeds ++ a.session.deeds own frame values

theorem latest?_stepped (a : Account) (own : Nat) (frame : Frame) (values : List Value) (task : Nat) :
    (a.stepped own frame values).latest? task =
      ((a.session.deeds own frame values).reverse.findSome? (Deed.callOf? task)).or (a.latest? task) := by
  rw [latest?, stepped, List.reverse_append, List.findSome?_append, latest?]

/-- What a task has called last is the same after the step of another, and after a step that calls
nothing. -/
theorem latest?_other {a : Account} {own task : Nat} {frame : Frame} (other : task ≠ own ∨ ∀ target, frame ≠ .call target)
    (values : List Value) : (a.stepped own frame values).latest? task = a.latest? task := by
  rw [latest?_stepped]
  suffices none : (a.session.deeds own frame values).reverse.findSome? (Deed.callOf? task) = none by
    rw [none, Option.none_or]
  cases frame with
  | call target =>
    rcases other with other | silent
    · simp [Session.deeds, Deed.callOf?, other.symm]
    · exact absurd rfl (silent target)
  | _ => rfl

theorem latest?_call (a : Account) (own : Nat) (target : Target) (values : List Value) :
    (a.stepped own (.call target) values).latest? own = some (target, values) := by
  rw [latest?_stepped]
  simp [Session.deeds, Deed.callOf?]

theorem filterMap_deeds (s : Session) (read : Value → δ) (own : Nat) (frame : Frame) (values : List Value) :
    (s.deeds own frame values).filterMap (Deed.ask? read) = s.asks read frame values := by
  cases frame <;> rfl

variable {r : Reading δ} {c : Coordinator} {d : Store} {plan : Plan δ} {root : Nat} {entry : Entry} {a : Account}
  {own id : Nat} {frame : Frame} {rest : List Frame} {values : List Value} {more : List (Ask δ)}
  {goal : Nat → Option (List δ)} {left : Nat → List (Ask δ)}

theorem follows_stepped (inside : ∀ id ∈ a.family, id < a.session.schedule.promises.size) :
    Follows plan (plan.grow a.session.schedule.promises.size own more goal left) a .step (a.stepped own frame values) where
  session := rfl
  family _ member := List.mem_append_left _ member
  deeds _ member := List.mem_append_left _ member
  goal id member := if_pos (inside id member)

/-- What the step of a task leaves of its own promise. -/
theorem abides_own (orderly : a.session.Orderly a.session.running) (abides : a.Abides r c d plan root entry own)
    (turn : a.session.turn = some { task := own, frames := frame :: rest, values })
    (proceeds : ∀ frames supply, (a.session.happen .step).Stands own frames supply →
      (a.stepped own frame values).Proceeds r c d (plan.grow a.session.schedule.promises.size own more goal left) root own
        frames supply (plan.goal own) more)
    (refused : ∀ fault result, (a.session.happen .step).schedule.outcome? own = some (.error fault) →
      plan.goal own = some result → more = [] ∧ (a.stepped own frame values).Meets r root entry own result (.error fault))
    (silent : plan.goal own = none → more = []) :
    (a.stepped own frame values).Abides r c d (plan.grow a.session.schedule.promises.size own more goal left) root entry own := by
  obtain ⟨⟨inside, _⟩, frames, origin⟩ := (Session.Stands.turn turn).alive orderly
  have enlarged := orderly.enlarges .step
  have sameGoal : (plan.grow a.session.schedule.promises.size own more goal left).goal own = plan.goal own := if_pos inside
  have sameLeft : (plan.grow a.session.schedule.promises.size own more goal left).left own = more :=
    (if_pos inside).trans (if_pos rfl)
  have role : (a.session.happen .step).schedule.role? own = some .task := enlarged.origin origin
  constructor
  case proceeds =>
    intro frames supply stands
    rw [sameGoal, sameLeft]
    exact proceeds frames supply stands
  case ended =>
    intro outcome result ended known
    obtain ⟨fault, rfl, _⟩ := Session.settles_step orderly turn ended
    rw [sameGoal] at known
    rw [sameLeft]
    exact refused fault result ended known
  case silent =>
    intro none
    rw [sameLeft]
    exact silent (sameGoal.symm.trans none)
  case joined =>
    intro members joined
    cases (Schedule.members?_role role).symm.trans joined
  case outside =>
    intro outside
    cases role.symm.trans (Schedule.role?_outside.mpr outside)
  case bare =>
    intro _ nothing
    exact abides.bare (Schedule.role?_origin origin) (sameGoal.symm.trans nothing)

/-- What a step of a task leaves to the task and to what it starts. -/
structure Renews (r : Reading δ) (c : Coordinator) (d : Store) (plan : Plan δ) (root : Nat) (entry : Entry) (a : Account)
    (own : Nat) (frame : Frame) (values : List Value) (more : List (Ask δ)) (next : Plan δ) : Prop where
  self : (a.stepped own frame values).Abides r c d next root entry own
  new : ∀ id ∈ a.session.offspring frame values, (a.stepped own frame values).Abides r c d next root entry id
  asked : plan.left own =
    a.session.asks r.read frame values ++ ((a.session.offspring frame values).flatMap next.left ++ more)

theorem renews_alone (orderly : a.session.Orderly a.session.running) (abides : a.Abides r c d plan root entry own)
    (turn : a.session.turn = some { task := own, frames := frame :: rest, values })
    (none : a.session.offspring frame values = []) {next : List Frame} {given : List Value}
    (move : (a.session.takeStep frame values).2.stand? = some (next, .values given))
    (proceeds : (a.stepped own frame values).Proceeds r c d (plan.grow a.session.schedule.promises.size own more goal left)
      root own (next ++ rest) (.values given) (plan.goal own) more)
    (asked : plan.left own = a.session.asks r.read frame values ++ more) :
    Renews r c d plan root entry a own frame values more (plan.grow a.session.schedule.promises.size own more goal left) := by
  refine ⟨abides_own orderly abides turn ?_ ?_ ?_,
    ?_, by rw [none]; exact asked⟩
  · intro frames supply stands
    obtain ⟨frames', before, left, rfl, supplied⟩ := Session.stands_own orderly turn stands
    cases move.symm.trans left
    rcases supplied with rfl | ⟨_, _, same, _⟩
    · exact proceeds
    · cases same
  · intro fault result ended _
    obtain ⟨_, _, failed | ⟨_, _, waits, _⟩⟩ := Session.settles_step orderly turn ended
    · rw [failed] at move
      cases move
    · rw [waits] at move
      cases move
  · intro nothing
    rw [nothing] at proceeds
    exact proceeds.of_service.2
  · intro id member
    rw [none] at member
    cases member

theorem renews_refused (orderly : a.session.Orderly a.session.running) (abides : a.Abides r c d plan root entry own)
    {config : Value} {all : Bool} (turn : a.session.turn = some { task := own, frames := .place config all :: rest, values })
    {fault : Fault} (failed : (a.session.takeStep (.place config all) values).2 = .fail fault) (bare : plan.goal own = some [])
    (asked : plan.left own = a.session.asks r.read (.place config all) values) :
    Renews r c d plan root entry a own (.place config all) values []
      (plan.grow a.session.schedule.promises.size own [] goal left) := by
  have none : a.session.offspring (.place config all) values = [] :=
    Session.offspring_same rfl (Session.schedule_place a.session config all values)
  have done : .place config all values (some fault) ∈ (a.stepped own (.place config all) values).deeds := by
    apply List.mem_append_right _
    have refusal : (a.session.place config all values).2 = .fail fault := failed
    rw [Session.deeds, refusal]
    exact List.mem_singleton_self _
  refine ⟨abides_own orderly abides turn ?_ (fun other result ended _ => ⟨rfl, Or.inr ?_⟩)
    fun _ => rfl, ?_, by rw [none]; simpa using asked⟩
  · intro frames supply stands
    obtain ⟨_, _, left, _⟩ := Session.stands_own orderly turn stands
    rw [failed] at left
    cases left
  · obtain ⟨_, frames, origin⟩ := (Session.Stands.turn turn).alive orderly
    obtain ⟨same, state⟩ := abides.bare (Schedule.role?_origin origin) bare
    obtain ⟨_, same', moved | ⟨_, _, waits, _⟩⟩ := Session.settles_step orderly turn ended
    · cases failed.symm.trans moved
      cases same'
      exact ⟨same, state, fault, rfl, config, all, values, done⟩
    · cases failed.symm.trans waits
  · intro id member
    rw [none] at member
    cases member

theorem offspring_late {s : Session} (late : frame.isLate = true) (values : List Value) : s.offspring frame values = [] := by
  cases frame with
  | pause => exact Session.offspring_same rfl rfl
  | act action request => rfl
  | _ => cases late

theorem asks_late {s : Session} (read : Value → δ) (late : frame.isLate = true) (values : List Value) :
    s.asks read frame values = [] := by
  cases frame with
  | pause => rfl
  | act action request => rfl
  | _ => cases late

/-- A task that acts for the method that it has called. -/
theorem renews_acting (orderly : a.session.Orderly a.session.running) (abides : a.Abides r c d plan root entry own)
    (turn : a.session.turn = some { task := own, frames := frame :: rest, values }) (answered : a.Answered r)
    (among : own ∈ a.family) {turns : Nat} {action : Action} {request : Request} {later : List Frame}
    (steps : frame :: rest = Session.lateSteps turns action request ++ later) {target : Target} {params : List Value}
    (latest : a.latest? own = some (target, params)) {result : List δ} (known : plan.goal own = some result)
    (performs : Performs r c d later [r.answer target.service target.method (params.map r.read)] result (plan.left own)) :
    Renews r c d plan root entry a own frame values (plan.left own)
      (plan.grow a.session.schedule.promises.size own (plan.left own) goal left) := by
  cases turns with
  | zero =>
    cases steps
    obtain ⟨v, done, read⟩ := answered.acted own among action request _ values target params turn latest
    have taken : (a.session.takeStep (.act action request) values).2 = .go [] [v] := by
      rw [Session.takeStep]
      generalize a.session.act action request = acted at done
      obtain ⟨t, answer⟩ := acted
      cases done
      rfl
    refine renews_alone orderly abides turn rfl (by rw [taken]; rfl) ?_ rfl
    rw [known]
    refine .given ?_
    rw [← read] at performs
    exact performs
  | succ n =>
    cases steps
    refine renews_alone orderly abides turn (offspring_late rfl values) rfl ?_ rfl
    rw [known]
    refine .acting ?_ performs
    rw [latest?_other (Or.inr fun _ => Frame.noConfusion), latest]

theorem renews_service (orderly : a.session.Orderly a.session.running) (abides : a.Abides r c d plan root entry own)
    (turn : a.session.turn = some { task := own, frames := frame :: rest, values }) (none : plan.goal own = none) :
    Renews r c d plan root entry a own frame values [] (plan.grow a.session.schedule.promises.size own [] goal left) := by
  have proceeds := abides.proceeds _ _ (.turn turn)
  rw [none] at proceeds
  obtain ⟨late, nothing⟩ := proceeds.of_service
  have first : frame.isLate = true := late frame (List.mem_cons_self ..)
  have alone := offspring_late (s := a.session) first values
  refine ⟨abides_own orderly abides turn ?_ ?_ fun _ => rfl,
    ?_, by rw [nothing, alone, asks_late r.read first]; rfl⟩
  · intro frames supply stands
    obtain ⟨next, _, left, rfl, _⟩ := Session.stands_own orderly turn stands
    obtain rfl := (Session.leading_step left).late first
    rw [none]
    exact .service fun f member => late f (List.mem_cons_of_mem _ member)
  · intro _ result _ known
    cases none.symm.trans known
  · intro id member
    rw [alone] at member
    cases member

theorem abides_service (orderly : a.session.Orderly a.session.running)
    (turn : a.session.turn = some { task := own, frames := frame :: rest, values })
    (answers : a.session.Answers (a.session.takeStep frame values).1 id) {next : Plan δ} (none : next.goal id = none)
    (nothing : next.left id = []) : (a.stepped own frame values).Abides r c d next root entry id := by
  have enlarged := Session.enlarges_step orderly turn
  have alone : (a.session.happen .step).schedule.members? id = Option.none := by
    rw [enlarged.members answers.inside]
    exact Schedule.members?_eq_none.mpr answers.alone
  constructor
  case proceeds =>
    intro frames supply stands
    obtain ⟨rfl, origin⟩ := Session.stands_new orderly turn answers.new stands
    rw [none, nothing]
    exact .service (answers.late frames origin)
  case ended =>
    intro _ _ _ known
    cases none.symm.trans known
  case silent => exact fun _ => nothing
  case joined =>
    intro members joined
    cases alone.symm.trans joined
  case outside => exact fun _ known => absurd none known
  case bare =>
    intro _ known
    cases none.symm.trans known

theorem renews_called (orderly : a.session.Orderly a.session.running) (abides : a.Abides r c d plan root entry own)
    {target : Target} (turn : a.session.turn = some { task := own, frames := .call target :: rest, values })
    (answered : (a.stepped own (.call target) values).Answered r) {result : List δ} (known : plan.goal own = some result)
    (performs : Performs r c d (.follow target.config :: rest)
      [r.answer target.service target.method (values.map r.read)] result more)
    (asked : plan.left own = a.session.asks r.read (.call target) values ++ more) :
    Renews r c d plan root entry a own (.call target) values more
      (plan.grow a.session.schedule.promises.size own more (fun _ => none) fun _ => []) := by
  have done : .call own target values (a.session.reply target values) ∈ (a.stepped own (.call target) values).deeds :=
    List.mem_append_right _ (List.mem_singleton_self _)
  have move := Session.snd_callTarget a.session target values
  rcases answered.replied _ _ _ _ done with ⟨id, replied, fine⟩ | ⟨frames, replied⟩
  · have answers := Session.answers_reply a.session target values replied
    have alone : a.session.offspring (.call target) values = [id] := by rw [Session.offspring, replied]
    have enlarged := Session.enlarges_step orderly turn
    have new := Nat.not_lt_of_le answers.new
    rw [replied] at move done
    -- An answer that is there at once is there after the step.
    have later {outcome : Outcome} (ended : (a.session.takeStep (.call target) values).1.schedule.outcome? id = some outcome) :
        ∃ v, outcome = .ok [v] ∧ r.read v = r.answer target.service target.method (values.map r.read) := by
      apply fine outcome
      rw [← ended]
      exact enlarged.settled (by simp [ended])
    refine ⟨abides_own orderly abides turn ?_ ?_ ?_, ?_, ?_⟩
    · intro frames supply stands
      obtain ⟨next, before, left, rfl, supplied⟩ := Session.stands_own orderly turn stands
      have taken : (a.session.takeStep (.call target) values).2 = .await id [.follow target.config] := move
      rw [taken] at left
      cases left
      rw [known]
      rcases supplied with rfl | ⟨promise, given, same, ended, rfl⟩
      · exact .called done performs
      · cases same
        obtain ⟨v, same, read⟩ := later ended
        cases same
        rw [← read] at performs
        exact .given performs
    · intro fault _ ended _
      obtain ⟨_, _, failed | ⟨promise, next, waits, failed⟩⟩ := Session.settles_step orderly turn ended
      · cases move.symm.trans failed
      · cases move.symm.trans waits
        obtain ⟨_, same, _⟩ := later failed
        cases same
    · intro none
      cases none.symm.trans known
    · intro other member
      rw [alone, List.mem_singleton] at member
      subst member
      exact abides_service orderly turn answers (if_neg new) (if_neg new)
    · rw [asked, alone, List.flatMap_singleton, Plan.grow]
      dsimp only
      rw [if_neg new, List.nil_append]
  · obtain ⟨turns, action, request, rfl⟩ := Session.steps_reply a.session target values replied
    rw [replied] at move
    have alone : a.session.offspring (.call target) values = [] := by rw [Session.offspring, replied]
    refine renews_alone orderly abides turn alone (congrArg Move.stand? move) ?_ asked
    rw [known, List.append_assoc]
    exact .acting (latest?_call a own target values) performs

section Fan

variable {mapping : Value} {items : List Value} {next : List Frame} {parts : List (δ × List (Ask δ))}

theorem abides_item (orderly : a.session.Orderly a.session.running)
    (turn : a.session.turn = some { task := own, frames := frame :: rest, values })
    (taken : (a.session.takeStep frame values).1 = a.session.fan mapping items) {index depth : Nat} (within : index < items.length)
    {part : δ × List (Ask δ)} (found : parts[index]? = some part)
    (ends : Reading.mapItem d (r.evaluate c d depth) mapping index (r.read items[index]) = some part) :
    (a.stepped own frame values).Abides r c d (plan.fan a.session.schedule.promises.size own more parts) root entry
      (a.session.schedule.promises.size + index) := by
  obtain ⟨origin, open_⟩ := Session.fan_item a.session mapping items within
  rw [← taken] at origin open_
  have new := Nat.le_add_right a.session.schedule.promises.size index
  have other : a.session.schedule.promises.size + index ≠ own :=
    Nat.ne_of_gt (Nat.lt_of_lt_of_le ((Session.Stands.turn turn).alive orderly).1.1 new)
  have goal : (plan.fan a.session.schedule.promises.size own more parts).goal (a.session.schedule.promises.size + index) =
      some [part.1] := by
    rw [Plan.goal_fan, found]
    rfl
  have left : (plan.fan a.session.schedule.promises.size own more parts).left (a.session.schedule.promises.size + index) =
      part.2 := by
    rw [Plan.left_fan, found]
    rfl
  have unsettled := Session.unsettled_step turn other open_
  have role : (a.session.happen .step).schedule.role? (a.session.schedule.promises.size + index) = some .task :=
    (Session.enlarges_step orderly turn).origin origin
  constructor
  case proceeds =>
    intro frames supply stands
    obtain ⟨rfl, same⟩ := Session.stands_new orderly turn new stands
    cases origin.symm.trans same
    rw [goal, left, ← List.append_nil part.2]
    exact .given (.mapItem ends (.done _))
  case ended =>
    intro _ _ ended _
    cases unsettled.symm.trans ended
  case silent =>
    intro none
    cases goal.symm.trans none
  case joined =>
    intro members joined
    cases (Schedule.members?_role role).symm.trans joined
  case outside =>
    intro outside
    cases role.symm.trans (Schedule.role?_outside.mpr outside)
  case bare =>
    intro _ bare
    cases goal.symm.trans bare

/-- Where there is nothing to map, the promise that waits for the tasks is settled already. -/
theorem abides_settled (orderly : a.session.Orderly a.session.running)
    (turn : a.session.turn = some { task := own, frames := frame :: rest, values })
    (taken : (a.session.takeStep frame values).1 = a.session.fan mapping []) :
    (a.stepped own frame values).Abides r c d (plan.fan a.session.schedule.promises.size own more []) root entry
      a.session.schedule.promises.size := by
  have enlarged := Session.enlarges_step orderly turn
  obtain ⟨origin, ended⟩ := Session.fan_nil a.session mapping
  rw [← taken] at origin ended
  have settled := (enlarged.settled (by simp [ended])).trans ended
  have role : (a.session.happen .step).schedule.role? a.session.schedule.promises.size = some .outside :=
    enlarged.origin origin
  have goal : (plan.fan a.session.schedule.promises.size own more []).goal a.session.schedule.promises.size = some [] :=
    plan.goal_fan a.session.schedule.promises.size own more [] 0
  have left : (plan.fan a.session.schedule.promises.size own more []).left a.session.schedule.promises.size = [] :=
    plan.left_fan a.session.schedule.promises.size own more [] 0
  constructor
  case proceeds =>
    intro frames supply stands
    obtain ⟨_, held⟩ := Session.stands_new orderly turn (Nat.le_refl _) stands
    cases origin.symm.trans held
  case ended =>
    intro outcome result same known
    cases settled.symm.trans same
    cases goal.symm.trans known
    exact ⟨left, Or.inl ⟨[], rfl, rfl⟩⟩
  case silent =>
    intro none
    cases goal.symm.trans none
  case joined =>
    intro members joined
    cases (Schedule.members?_role role).symm.trans joined
  case outside =>
    intro _ _ open_
    cases settled.symm.trans open_
  case bare =>
    intro task
    cases role.symm.trans task

/-- The promise that waits for the tasks comes to what they come to together. -/
theorem abides_join (orderly : a.session.Orderly a.session.running)
    (turn : a.session.turn = some { task := own, frames := frame :: rest, values })
    (taken : (a.session.takeStep frame values).1 = a.session.fan mapping items) (nonempty : items ≠ [])
    (length : parts.length = items.length)
    (started : a.session.offspring frame values = List.range' a.session.schedule.promises.size (items.length + 1))
    (before : root < a.session.schedule.promises.size) :
    (a.stepped own frame values).Abides r c d (plan.fan a.session.schedule.promises.size own more parts) root entry
      (a.session.schedule.promises.size + items.length) := by
  have new := Nat.le_add_right a.session.schedule.promises.size items.length
  have other : a.session.schedule.promises.size + items.length ≠ own :=
    Nat.ne_of_gt (Nat.lt_of_lt_of_le ((Session.Stands.turn turn).alive orderly).1.1 new)
  obtain ⟨origin, open_⟩ := Session.fan_join a.session mapping nonempty
  rw [← taken] at origin open_
  have unsettled := Session.unsettled_step turn other open_
  have role : (a.session.happen .step).schedule.role? (a.session.schedule.promises.size + items.length) =
      some (.join (List.range' a.session.schedule.promises.size items.length) false) :=
    (Session.enlarges_step orderly turn).origin origin
  have absent : parts[items.length]? = none := List.getElem?_eq_none (Nat.le_of_eq length)
  have goal : (plan.fan a.session.schedule.promises.size own more parts).goal
      (a.session.schedule.promises.size + items.length) = some (parts.map Prod.fst) := by
    rw [Plan.goal_fan, absent]
    rfl
  constructor
  case proceeds =>
    intro frames supply stands
    obtain ⟨_, held⟩ := Session.stands_new orderly turn new stands
    cases origin.symm.trans held
  case ended =>
    intro outcome result same known
    cases unsettled.symm.trans same
  case silent =>
    intro none
    cases goal.symm.trans none
  case joined =>
    intro members joined
    cases (Schedule.members?_role role).symm.trans joined
    refine ⟨Nat.ne_of_gt (Nat.lt_of_lt_of_le before new), ?_, ?_, ?_⟩
    · rw [Plan.left_fan, absent]
      rfl
    · rw [goal, ← length, Plan.goals_fan]
    · intro member among
      obtain ⟨low, high⟩ := List.mem_range'_1.mp among
      obtain ⟨index, rfl⟩ := Nat.exists_eq_add_of_le low
      refine ⟨List.mem_append_right _ ?_, Nat.ne_of_gt (Nat.lt_of_lt_of_le before low), ?_⟩
      · rw [started]
        exact List.mem_range'_1.mpr ⟨low, by omega⟩
      · rw [Plan.goal_fan]
        exact Option.some_ne_none _
  case outside =>
    intro outside
    cases role.symm.trans (Schedule.role?_outside.mpr outside)
  case bare =>
    intro task
    cases role.symm.trans task

/-- The promise that waits for the tasks is settled at once only if there are none. -/
theorem fan_settled {s : Session} {outcome : Outcome}
    (settled : (s.fan mapping items).schedule.outcome? (s.schedule.promises.size + items.length) = some outcome) :
    items = [] ∧ outcome = .ok [] := by
  by_cases empty : items = []
  · subst empty
    exact ⟨rfl, Option.some.inj (settled.symm.trans (Session.fan_nil s mapping).2)⟩
  · cases settled.symm.trans (Session.fan_join s mapping empty).2

theorem renews_fan (orderly : a.session.Orderly a.session.running) (abides : a.Abides r c d plan root entry own)
    (turn : a.session.turn = some { task := own, frames := frame :: rest, values })
    (taken : a.session.takeStep frame values =
      (a.session.fan mapping items, .await (a.session.schedule.promises.size + items.length) next))
    (started : a.session.offspring frame values = List.range' a.session.schedule.promises.size (items.length + 1))
    (silent : a.session.asks r.read frame values = []) {depth : Nat} {mapped result : List δ} {first : List (Ask δ)}
    (ends : Reading.mapFrom d (r.evaluate c d depth) mapping 0 (items.map r.read) = some (mapped, first))
    (known : plan.goal own = some result) (later : Performs r c d (next ++ rest) mapped result more)
    (asked : plan.left own = first ++ more) (before : root < a.session.schedule.promises.size) :
    ∃ parts, Renews r c d plan root entry a own frame values more
      (plan.fan a.session.schedule.promises.size own more parts) := by
  -- Each new task gets the part of its parameter, and the promise that waits for them all parts.
  obtain ⟨parts, length, rfl, rfl, each⟩ := Reading.mapFrom_parts ends
  rw [List.length_map] at length
  have session : (a.session.takeStep frame values).1 = a.session.fan mapping items := by rw [taken]
  have last : a.session.schedule.promises.size + items.length ∈ (a.stepped own frame values).family := by
    apply List.mem_append_right _
    rw [started]
    exact List.mem_range'_1.mpr ⟨Nat.le_add_right .., by omega⟩
  refine ⟨parts, abides_own orderly abides turn ?_ ?_ ?_, ?_, ?_⟩
  · intro frames supply stands
    obtain ⟨next', promise, move, rfl, supplied⟩ := Session.stands_own orderly turn stands
    rw [taken] at move supplied
    cases move
    rw [known]
    rcases supplied with rfl | ⟨_, values, same, ended, rfl⟩
    · refine .joined last (Nat.ne_of_gt (Nat.lt_of_lt_of_le before (Nat.le_add_right ..))) ?_ later
      rw [Plan.goal_grow, List.getElem?_eq_none (Nat.le_of_eq length)]
      rfl
    · cases same
      obtain ⟨rfl, same⟩ := fan_settled ended
      cases same
      cases List.eq_nil_of_length_eq_zero length
      exact .given later
  · intro fault _ ended _
    obtain ⟨_, _, failed | ⟨promise, _, waits, failed⟩⟩ := Session.settles_step orderly turn ended
    · rw [taken] at failed
      cases failed
    · rw [taken] at waits failed
      cases waits
      cases (fan_settled failed).2
  · intro none
    cases none.symm.trans known
  · intro id member
    rw [started] at member
    obtain ⟨low, high⟩ := List.mem_range'_1.mp member
    obtain ⟨index, rfl⟩ := Nat.exists_eq_add_of_le low
    by_cases within : index < items.length
    · obtain ⟨part, found, mapped⟩ := each index (r.read items[index]) (by simp [within])
      rw [Nat.zero_add] at mapped
      exact abides_item orderly turn session within found mapped
    · obtain rfl : index = items.length := by omega
      by_cases empty : items = []
      · subst empty
        cases List.eq_nil_of_length_eq_zero length
        exact abides_settled orderly turn session
      · exact abides_join orderly turn session empty length started before
  · rw [silent, started, ← length, Plan.lefts_fan]
    exact asked

end Fan

variable {whole : Value} {asked : Value → Prop}

/-- Whatever step a task takes, what it was to come to is left to it and to what the step starts. -/
theorem renews (accepted : Accepted c d whole asked) (checked : a.Checked c d whole asked)
    (document : d.Keeps a.session.store whole) (context : d.Keeps a.session.store c.context)
    (answered : a.Answered r) (later : (a.stepped own frame values).Answered r) (among : own ∈ a.family)
    (turn : a.session.turn = some { task := own, frames := frame :: rest, values })
    (abides : a.Abides r c d plan root entry own) (before : root < a.session.schedule.promises.size) :
    ∃ more goal left, Renews r c d plan root entry a own frame values more
      (plan.grow a.session.schedule.promises.size own more goal left) := by
  have orderly := checked.orderly
  have due := checked.due own among _ _ (.turn turn) frame (List.mem_cons_self ..)
  have steady : a.session.Steady c d whole asked := ⟨⟨checked.registry, document⟩, accepted, context⟩
  cases known : plan.goal own with
  | none => exact ⟨[], fun _ => none, fun _ => [], renews_service orderly abides turn known⟩
  | some result =>
    have proceeds := abides.proceeds _ _ (.turn turn)
    rw [known] at proceeds
    -- It is its turn, so the task waits for nobody: it acts for a service, or goes on with values.
    generalize steps : frame :: rest = frames at proceeds
    generalize asking : plan.left own = asks at proceeds
    cases proceeds with
    | acting latest performs =>
      subst asking
      exact ⟨_, fun _ => none, fun _ => [], renews_acting orderly abides turn answered among steps latest known performs⟩
    | given coming =>
      subst steps
      have listed (config : Value) (v : Value) (same : frame = .arrange config) (single : values = [v]) :
          (a.session.listItems? v).map (List.map r.read) = r.items (r.read v) := by
        subst same single
        exact answered.listed own among config rest v turn
      cases Session.advances steady due listed coming with
      | @on next given more taken none performs asked =>
        subst asked
        refine ⟨more, fun _ => Option.none, fun _ => [], renews_alone orderly abides turn none (by rw [taken]; rfl) ?_ asking⟩
        rw [known]
        exact .given performs
      | @fan mapping items next depth mapped first more taken started silent ends performs asked =>
        subst asked
        obtain ⟨parts, renewed⟩ := renews_fan orderly abides turn taken started silent ends known performs asking before
        exact ⟨more, _, _, renewed⟩
      | @call target more same performs asked =>
        subst same asked
        exact ⟨more, _, _, renews_called orderly abides turn later known performs asking⟩
      | @refused config all fault same failed asked =>
        subst same asked
        cases coming
        exact ⟨[], fun _ => none, fun _ => [], renews_refused orderly abides turn failed known asking⟩

end Account

end Interaction
