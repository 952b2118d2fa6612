import Interaction.Proofs.Account

/-! What the steps of calls start: the tasks that map parameters, together with the promise
that waits for them, and what a service answers with. -/

namespace Interaction

/-- Whether a step belongs to a method that waits before it acts. -/
def Frame.isLate : Frame → Bool
  | .pause | .act _ _ => true
  | _ => false

namespace Session

theorem isLate_lateSteps {turns : Nat} {action : Action} {request : Request} :
    ∀ frame ∈ lateSteps turns action request, frame.isLate = true := by
  intro frame member
  rcases List.mem_append.mp member with first | last
  · rw [List.eq_of_mem_replicate first]; rfl
  · rw [List.mem_singleton.mp last]; rfl

theorem items?_cases (s : Store) (mapping : Value) :
    (s.items? mapping = none ∨ s.items? mapping = some []) ∨ ∃ first rest, s.items? mapping = some (first :: rest) := by
  cases s.items? mapping with
  | none => exact Or.inl (Or.inl rfl)
  | some list =>
    cases list with
    | nil => exact Or.inl (Or.inr rfl)
    | cons first rest => exact Or.inr ⟨first, rest, rfl⟩

theorem mapEach_unmapped {s : Session} {mapping : Value} (unmapped : s.store.items? mapping = none ∨
      s.store.items? mapping = some []) (values : List Value) (frames : List Frame) :
    s.mapEach mapping values frames = (s, .go frames values) := by
  rw [mapEach_eq]
  rcases unmapped with none | empty
  · rw [none]
  · rw [empty]

/-- The schedule with one task for each parameter, and a promise that waits for them. -/
def fan (s : Session) (mapping : Value) (values : List Value) : Session :=
  { s with schedule := ((s.schedule.spawnAll (itemTasks mapping values.zipIdx)).join
      (List.range' s.schedule.promises.size values.length) false).1 }

theorem length_itemTasks (mapping : Value) (values : List Value) :
    (itemTasks mapping values.zipIdx).length = values.length := by
  rw [itemTasks, List.length_map, List.length_zipIdx]

theorem mapEach_mapped {s : Session} {mapping first : Value} {rest : List Value}
    (mapped : s.store.items? mapping = some (first :: rest)) (values : List Value) (frames : List Frame) :
    s.mapEach mapping values frames =
      (s.fan mapping values, .await (s.schedule.promises.size + values.length) frames) := by
  rw [mapEach_eq, mapped]
  dsimp only
  rw [Schedule.snd_join, Schedule.size_spawnAll, length_itemTasks]
  rfl

theorem size_fan (s : Session) (mapping : Value) (values : List Value) :
    (s.fan mapping values).schedule.promises.size = s.schedule.promises.size + values.length + 1 := by
  rw [fan, Schedule.size_join, Schedule.size_spawnAll, length_itemTasks]

theorem extends_fan (s : Session) (mapping : Value) (values : List Value) :
    (s.schedule.spawnAll (itemTasks mapping values.zipIdx)).Extends (s.fan mapping values).schedule := by
  refine .join _ ?_ false
  intro member isMember
  rw [Schedule.size_spawnAll, length_itemTasks]
  exact (List.mem_range'_1.mp isMember).2

theorem fan_item (s : Session) (mapping : Value) (values : List Value) {index : Nat} (inside : index < values.length) :
    (s.fan mapping values).schedule.origin? (s.schedule.promises.size + index) =
        some (.task [.mapItem mapping index values[index]]) ∧
      (s.fan mapping values).schedule.outcome? (s.schedule.promises.size + index) = none := by
  have within : index < (itemTasks mapping values.zipIdx).length := by rwa [length_itemTasks]
  have old : s.schedule.promises.size + index <
      (s.schedule.spawnAll (itemTasks mapping values.zipIdx)).promises.size := by
    rw [Schedule.size_spawnAll, length_itemTasks]
    omega
  rw [(extends_fan s mapping values).origin old, (extends_fan s mapping values).outcome old,
    Schedule.origin?_spawnAll _ _ within, Schedule.outcome?_spawnAll _ _ within]
  simp [itemTasks]

theorem fan_join (s : Session) (mapping : Value) {values : List Value} (nonempty : values ≠ []) :
    (s.fan mapping values).schedule.origin? (s.schedule.promises.size + values.length) =
        some (.join (List.range' s.schedule.promises.size values.length) values.length false) ∧
      (s.fan mapping values).schedule.outcome? (s.schedule.promises.size + values.length) = none := by
  have members : List.range' s.schedule.promises.size values.length ≠ [] := by simpa using nonempty
  have joined := Schedule.origin?_join (s.schedule.spawnAll (itemTasks mapping values.zipIdx)) members false
  rwa [Schedule.size_spawnAll, length_itemTasks, List.length_range'] at joined

theorem fan_nil (s : Session) (mapping : Value) :
    (s.fan mapping []).schedule.origin? s.schedule.promises.size = some .outside ∧
      (s.fan mapping []).schedule.outcome? s.schedule.promises.size = some (.ok []) :=
  Schedule.origin?_join_nil s.schedule false

theorem mapEach_new (s : Session) (mapping : Value) (values : List Value) (frames : List Frame) {id : Nat}
    {steps : List Frame} (new : s.schedule.promises.size ≤ id)
    (origin : (s.mapEach mapping values frames).1.schedule.origin? id = some (.task steps)) :
    ∃ index value, steps = [.mapItem mapping index value] := by
  have inside := Schedule.origin?_inside origin
  rcases items?_cases s.store mapping with unmapped | ⟨first, rest, mapped⟩
  · rw [mapEach_unmapped unmapped] at inside
    exact absurd inside (Nat.not_lt_of_le new)
  rw [mapEach_mapped mapped] at inside origin
  rw [size_fan] at inside
  obtain ⟨index, rfl⟩ := Nat.exists_eq_add_of_le new
  by_cases within : index < values.length
  · rw [(fan_item s mapping values within).1] at origin
    cases origin
    exact ⟨index, values[index], rfl⟩
  · have last : index = values.length := by omega
    subst last
    by_cases empty : values = []
    · subst empty
      cases (fan_nil s mapping).1.symm.trans origin
    · rw [(fan_join s mapping empty).1] at origin
      cases origin

theorem schedule_place (s : Session) (config : Value) (whole : Bool) (values : List Value) :
    (s.place config whole values).1.schedule = s.schedule := by
  obtain ⟨_, _, _, same, _⟩ := s.place_made config whole values
  rw [same]

/-- What a service answers with is new. It is settled from outside, or by a task that
waits before it acts. -/
structure Answers (s t : Session) (id : Nat) : Prop where
  new : s.schedule.promises.size ≤ id
  inside : id < t.schedule.promises.size
  late : ∀ frames, t.schedule.origin? id = some (.task frames) → ∀ frame ∈ frames, frame.isLate = true
  alone : ∀ members left patient, t.schedule.origin? id ≠ some (.join members left patient)

theorem Answers.later {s t u : Session} {id : Nat} (answers : t.Answers u id) (grows : s.Grows t) : s.Answers u id :=
  ⟨Nat.le_trans grows.extends.schedule.size answers.new, answers.inside, answers.late, answers.alone⟩

theorem answers_defer (s : Session) : s.Answers s.defer.1 s.defer.2 := by
  have origin : s.defer.1.schedule.origin? s.defer.2 = some .outside := Orderly.pending_outside s.schedule
  refine ⟨Nat.le_refl _, Schedule.origin?_inside origin, ?_, ?_⟩ <;> simp [origin]

theorem answers_settled (s : Session) (outcome : Outcome) : s.Answers (s.settled outcome).1 (s.settled outcome).2 := by
  have origin : (s.settled outcome).1.schedule.origin? (s.settled outcome).2 = some .outside := by
    exact (Schedule.origin?_add ..).trans (if_pos rfl)
  refine ⟨Nat.le_refl _, Schedule.origin?_inside origin, ?_, ?_⟩ <;> simp [origin]

theorem answers_late (s : Session) (turns : Nat) (action : Action) (request : Request) :
    s.Answers (s.spawn (lateSteps turns action request)).1 (s.spawn (lateSteps turns action request)).2 := by
  have origin : (s.spawn (lateSteps turns action request)).1.schedule.origin?
      (s.spawn (lateSteps turns action request)).2 = some (.task (lateSteps turns action request)) :=
    Schedule.origin?_spawn ..
  refine ⟨Nat.le_refl _, Schedule.origin?_inside origin, fun frames same => ?_, by simp [origin]⟩
  rw [origin] at same
  cases same
  exact isLate_lateSteps

/-- The outcome of a task that ends with what an action answers. -/
def lateOutcome (answer : Except Fault Value) : Outcome :=
  (answer.mapError Fault.ofTask).map fun v => [v]

theorem Calls.answers {s : Session} {script : Script} {request : Request} {direct : Bool} {result : Session × Reply}
    (calls : s.Calls script request direct result) {id : Nat} (replied : result.2 = .promise id) : s.Answers result.1 id := by
  cases calls <;> cases replied
  case defer => exact answers_defer s
  case late => exact answers_late s _ _ request
  case settled outcome => exact (answers_settled _ outcome).later (.act s _ request)

/-- A method whose end is handed over to a promise leaves no steps to its caller, and no value. -/
theorem callWrapped_cases (s : Session) (script : Script) (request : Request) :
    (∃ id, (s.callWrapped script request).2 = .promise id) ∨ (s.callWrapped script request).2 = .fault .unpromised := by
  have calls := s.calls_wrapped script request
  generalize s.callWrapped script request = result at calls ⊢
  cases calls with
  | defer | late | settled => exact Or.inl ⟨_, rfl⟩
  | stopped => exact Or.inr rfl

theorem answers_execute (s : Session) (place : Nat) (name : Value) (params : List Value) {id : Nat}
    (replied : (s.execute place name params).2 = .promise id) : s.Answers (s.execute place name params).1 id := by
  have responds := s.responds_execute place name params
  generalize s.execute place name params = result at replied responds ⊢
  cases responds with
  | refused => cases replied
  | called _ _ _ calls => exact (calls.answers replied).later (.beginCall s place _ params)

theorem snd_callTarget (s : Session) (target : Target) (values : List Value) :
    (s.callTarget target values).2 = match s.reply target values with
      | .promise id => .await id [.follow target.config]
      | .steps frames => .go (frames ++ [.follow target.config]) []
      | .plain v => .fail (.notAwaitable ((s.callTarget target values).1.store.kind v))
      | .fault fault => .fail fault.ofTask := by
  rw [fst_callTarget]
  unfold callTarget reply
  dsimp only
  generalize (s.announceCall target values).execute target.service (.text target.method) values = result
  obtain ⟨t, reply⟩ := result
  cases reply <;> rfl

theorem answers_reply (s : Session) (target : Target) (values : List Value) {id : Nat}
    (replied : s.reply target values = .promise id) : s.Answers (s.callTarget target values).1 id := by
  rw [fst_callTarget]
  exact (answers_execute _ _ _ _ replied).later (.log s _)

/-- Steps that a service leaves to the caller are those of a method that waits. -/
theorem steps_reply (s : Session) (target : Target) (values : List Value) {frames : List Frame}
    (replied : s.reply target values = .steps frames) : ∃ turns action request, frames = lateSteps turns action request := by
  have responds := (s.announceCall target values).responds_execute target.service (.text target.method) values
  rw [reply] at replied
  generalize (s.announceCall target values).execute target.service (.text target.method) values = result at replied responds
  cases responds with
  | refused => cases replied
  | called _ _ _ calls =>
    cases calls <;> cases replied
    exact ⟨_, _, _, rfl⟩

theorem late_reply (s : Session) (target : Target) (values : List Value) {frames : List Frame}
    (replied : s.reply target values = .steps frames) : ∀ frame ∈ frames, frame.isLate = true := by
  obtain ⟨turns, action, request, rfl⟩ := steps_reply s target values replied
  exact isLate_lateSteps

theorem mem_offspring {s : Session} {frame : Frame} {values : List Value} {id : Nat}
    (member : id ∈ s.offspring frame values) :
    s.schedule.promises.size ≤ id ∧ id < (s.takeStep frame values).1.schedule.promises.size := by
  unfold offspring at member
  split at member
  · cases member
  next target =>
    split at member
    next id replied =>
      rw [List.mem_singleton.mp member]
      exact ⟨(answers_reply s target values replied).new, (answers_reply s target values replied).inside⟩
    · cases member
  next frame _ _ =>
    obtain ⟨new, inside⟩ := List.mem_range'_1.mp member
    exact ⟨new, by omega⟩

theorem offspring_inside {s : Session} (orderly : s.Orderly s.running) {task : Nat} {frame : Frame} {rest : List Frame}
    {values : List Value} (turn : s.turn = some { task, frames := frame :: rest, values }) {id : Nat}
    (member : id ∈ s.offspring frame values) : id < (s.happen .step).schedule.promises.size :=
  Nat.lt_of_lt_of_le (mem_offspring member).2 (enlarges_step orderly turn).size

end Session

end Interaction
