import Interaction.Proofs.QuietMachine

/-! Lines of input: what becomes of a line that is handled, and of the promise of a line that is
asked for. Only the task that asks for a line changes what is asked for, and only a line that is heard
settles the promise. -/

namespace Interaction.Session

/-- Whether a line ends the input. -/
def leaves (text : String) : Bool :=
  !(Text.trim text).isEmpty && (Command.parse (Text.trim text) = some .quit || Command.parse (Text.trim text) = some .exit)

/-- How a task goes on after it has handled a line: at once if the line is blank or ends the input, or
when the behaviour of all transitions has ended, unless an operation of the machine raises something
that is not expected. -/
inductive Handles (s : Session) (text : String) : Move → Prop where
  | blank (idle : lineOperation? text = none) (stays : leaves text = false) : Handles s text (.go [] [.bool true])
  | leave (idle : lineOperation? text = none) (ends : leaves text = true) : Handles s text (.go [] [.bool false])
  | carried (stays : leaves text = false) : Handles s text (.go [.drain, .announce] [])
  | broken {o : Operation} {fault : Fault} (asks : lineOperation? text = some o) (raised : s.outcome o = .error fault)
      (unexpected : fault.isExpected = false) : Handles s text (.fail fault)

theorem lineOperation?_blank {text : String} (blank : (Text.trim text).isEmpty = true) :
    lineOperation? text = none ∧ leaves text = false := by
  simp [lineOperation?, leaves, blank]

theorem lineOperation?_event {text : String} (said : (Text.trim text).isEmpty = false)
    (parsed : Command.parse (Text.trim text) = none) :
    lineOperation? text = some (.fire (.text (Text.trim text))) ∧ leaves text = false := by
  simp [lineOperation?, leaves, said, parsed]

theorem lineOperation?_command {text : String} (said : (Text.trim text).isEmpty = false) {command : Command}
    (parsed : Command.parse (Text.trim text) = some command) :
    lineOperation? text = (match command with
      | .run => some (.setRunning true)
      | .pause => some (.setRunning false)
      | .reset => some .reset
      | .state | .quit | .exit => none) ∧ (leaves text = true ↔ command = .quit ∨ command = .exit) := by
  cases command <;> simp [lineOperation?, leaves, said, parsed]

theorem Handles.after {s : Session} {text shown : String} {o : Operation} {result : Session × Except Fault Unit}
    (stays : leaves text = false) (asks : lineOperation? text = some o) (same : s.outcome o = result.2) :
    s.Handles text (afterLine shown result).2 := by
  obtain ⟨t, answer⟩ := result
  cases answer with
  | ok _ => exact .carried stays
  | error fault =>
    unfold afterLine
    dsimp only
    cases expected : fault.isExpected with
    | true => exact .carried stays
    | false => exact .broken asks same expected

theorem handles (s : Session) (text : String) : s.Handles text (s.handleLine text).2 := by
  unfold handleLine
  dsimp only
  cases said : (Text.trim text).isEmpty with
  | true =>
    obtain ⟨idle, stays⟩ := lineOperation?_blank said
    exact .blank idle stays
  | false =>
    rw [if_neg Bool.false_ne_true]
    cases parsed : Command.parse (Text.trim text) with
    | none =>
      obtain ⟨asks, stays⟩ := lineOperation?_event said parsed
      exact .after stays asks rfl
    | some command =>
      obtain ⟨asks, ends⟩ := lineOperation?_command said parsed
      cases command with
      | run => exact .after (by simpa using ends) asks rfl
      | pause => exact .after (by simpa using ends) asks rfl
      | reset => exact .carried (by simpa using ends)
      | state => exact .carried (by simpa using ends)
      | quit => exact .leave asks (ends.mpr (Or.inl rfl))
      | exit => exact .leave asks (ends.mpr (Or.inr rfl))

variable {s : Session} {o : Occasion} {own promise : Nat}

theorem Grows.deferred {t : Session} (grows : s.Grows t) : ∀ id ∈ t.deferred, id ∈ s.deferred ∨ s.schedule.promises.size ≤ id := by
  induction grows with
  | aside schedule turn tracked deferred asked =>
    rw [deferred]
    exact fun _ => Or.inl
  | defer s =>
    intro id member
    rcases List.mem_append.mp member with old | new
    · exact Or.inl old
    · rw [List.mem_singleton.mp new]
      exact Or.inr (Nat.le_refl _)
  | trans first _ before later =>
    intro id member
    rcases later id member with old | new
    · exact before id old
    · exact Or.inr (Nat.le_trans first.extends.schedule.size new)
  | _ => exact fun _ => Or.inl

theorem outside_step (orderly : s.Orderly s.running) (outside : s.schedule.origin? promise = some .outside)
    (open_ : s.schedule.outcome? promise = none) : (s.happen .step).schedule.outcome? promise = none := by
  have task {id : Nat} (own : s.schedule.Open id ∧ ∃ frames, s.schedule.origin? id = some (.task frames)) : id ≠ promise := by
    rintro rfl
    obtain ⟨_, frames, held⟩ := own
    cases held.symm.trans outside
  cases settled : (s.happen .step).schedule.outcome? promise with
  | none => rfl
  | some outcome =>
    have inside := Schedule.origin?_inside outside
    cases stepped : s.step with
    | none =>
      rw [happen, stepped] at settled
      cases open_.symm.trans settled
    | some t =>
      simp only [happen, stepped, Option.getD_some] at settled
      rcases step_cases stepped with ⟨own, values, turn, rfl⟩ | ⟨own, frame, rest, values, turn, rfl⟩ |
        ⟨job, queue, turn, next, rfl⟩
      · exact absurd (settles_own open_ settled).1 (task ((Stands.turn turn).alive orderly))
      · have extended := (Grows.takeStep s frame values orderly.tracked).extends
        have same := (settles_move ((extended.schedule.outcome inside).trans open_) settled).1
        exact absurd same (task ((Stands.turn turn).alive orderly))
      · have first : job ∈ s.schedule.queue := next ▸ List.mem_cons_self ..
        rw [running, turn] at orderly
        cases job with
        | run own => cases open_.symm.trans settled
        | tell waiter told =>
          have noticed : (waiter, told) ∈ s.schedule.notices := Schedule.mem_notices.mpr (Or.inl first)
          cases waiter with
          | resume own =>
            have same := (settles_resume (s := s.popped queue) open_ settled).1
            exact absurd same (task (orderly.schedule.alive own (Schedule.mem_wakes.mpr (Or.inr ⟨told, noticed⟩))))
          | member join =>
            have same := (settles_report (s := (s.popped queue).schedule) open_ settled).1
            obtain ⟨_, _, _, held, _⟩ := orderly.schedule.joined join told noticed
            rw [same] at held
            cases held.symm.trans outside
          | report name =>
            rw [doJob, schedule_reportBehavior] at settled
            cases open_.symm.trans settled

theorem kept_resume (s : Session) (task : Nat) (frames : List Frame) (outcome : Outcome) :
    (s.resume task frames outcome).asked = s.asked ∧ (s.resume task frames outcome).deferred = s.deferred := by
  cases outcome <;> exact ⟨rfl, rfl⟩

theorem kept_move (s : Session) (task : Nat) (rest : List Frame) (move : Move) :
    (s.move task rest move).asked = s.asked ∧ (s.move task rest move).deferred = s.deferred := by
  cases move with
  | go frames values => exact ⟨rfl, rfl⟩
  | yield frames => exact ⟨rfl, rfl⟩
  | fail fault => exact ⟨rfl, rfl⟩
  | await promise frames =>
    simp only [Session.move]
    split
    · exact kept_resume ..
    · exact ⟨rfl, rfl⟩

theorem kept_doJob (s : Session) (job : Job) : (s.doJob job).asked = s.asked ∧ (s.doJob job).deferred = s.deferred := by
  cases job with
  | run task => exact ⟨rfl, rfl⟩
  | tell waiter id =>
    cases waiter with
    | resume task => exact kept_resume ..
    | member join => exact ⟨rfl, rfl⟩
    | report name =>
      simp only [doJob, reportBehavior]
      split <;> exact ⟨rfl, rfl⟩

/-- A step that asks for no line leaves the one that is asked for, and what else is left to be settled
from outside is new. -/
theorem kept_step (orderly : s.Orderly s.running) (other : ∀ frame rest task values, s.turn = some { task, frames := frame :: rest, values } →
      frame ≠ .ask) :
    (s.happen .step).asked = s.asked ∧ ∀ id ∈ (s.happen .step).deferred, id ∈ s.deferred ∨ s.schedule.promises.size ≤ id := by
  have same {t : Session} (asked : t.asked = s.asked) (deferred : t.deferred = s.deferred) :
      t.asked = s.asked ∧ ∀ id ∈ t.deferred, id ∈ s.deferred ∨ s.schedule.promises.size ≤ id :=
    ⟨asked, fun _ member => Or.inl (deferred ▸ member)⟩
  cases stepped : s.step with
  | none =>
    rw [happen, stepped]
    exact same rfl rfl
  | some t =>
    rw [happen, stepped, Option.getD_some]
    rcases step_cases stepped with ⟨_, _, _, rfl⟩ | ⟨task, frame, rest, values, turn, rfl⟩ | ⟨job, queue, _, _, rfl⟩
    · exact same rfl rfl
    · have tames := Tames.takeStep s (other frame rest task values turn) values orderly.tracked
      rw [(kept_move _ task rest _).1, (kept_move _ task rest _).2]
      exact ⟨tames.asked, tames.grows.deferred⟩
    · exact same (kept_doJob ..).1 (kept_doJob ..).2

/-- The line that is heard on an occasion, if one was asked for. None is heard at the end of the input. -/
def heard? (s : Session) : Occasion → Option (Option String)
  | .event (.hear line) => if s.asked.isSome then some line else none
  | _ => none

/-- Whether a line is asked for, and with which promise. -/
structure Asking (s : Session) (promise : Nat) : Prop where
  asked : s.asked = some promise
  open_ : s.schedule.outcome? promise = none
  apart : promise ∉ s.deferred

theorem Alone.unasking (alone : s.Alone own) (idle : ¬ s.Steps (.event .step) own) {frame : Frame} {rest : List Frame} {task : Nat}
    {values : List Value} (turn : s.turn = some { task, frames := frame :: rest, values }) : frame ≠ .ask := by
  rintro rfl
  by_cases same : task = own
  · subst same
    exact idle ⟨rfl, _, _, _, turn⟩
  · cases alone.others task _ _ same (.turn turn) _ (List.mem_cons_self ..)

theorem Alone.asked (alone : s.Alone own) (orderly : s.Orderly s.running) (aside : o.isAside = true) (idle : ¬ s.Steps o own)
    {promise : Nat} (asked : (s.occur o).asked = some promise) : s.asked = some promise := by
  rcases o.event_or_exchange with ⟨e, rfl⟩ | other
  case inr =>
    obtain ⟨_, _, _, _, same, _⟩ := occur_other (s := s) other
    exact same.symm.trans asked
  by_cases isStep : e = .step
  · subst isStep
    have kept := (kept_step orderly fun frame rest task values turn => alone.unasking idle turn).1
    exact kept.symm.trans asked
  cases e with
  | hear line =>
    simp only [Session.occur, happen, hear] at asked
    split at asked
    · exact asked
    · cases asked
  | answer index outcome =>
    simp only [Session.occur, happen, answer] at asked
    split at asked <;> exact asked
  | step => exact absurd rfl isStep
  | _ => exact (tames_outside aside rfl).asked.symm.trans asked

theorem Asking.occur (asking : s.Asking promise) (alone : s.Alone own) (orderly : s.Orderly s.running) (aside : o.isAside = true)
    (idle : ¬ s.Steps o own) : (s.heard? o = none ∧ (s.occur o).Asking promise) ∨
      ∃ line, s.heard? o = some line ∧ (s.occur o).asked = none ∧
        (s.occur o).schedule.outcome? promise = some (.ok (line.toList.map .text)) := by
  have outside := orderly.asked promise asking.asked
  have inside := Schedule.origin?_inside outside
  rcases o.event_or_exchange with ⟨e, rfl⟩ | other
  case inr =>
    obtain ⟨schedule, _, _, deferred, asked, _⟩ := occur_other (s := s) other
    refine Or.inl ⟨?_, asked.trans asking.asked, by rw [schedule]; exact asking.open_, by rw [deferred]; exact asking.apart⟩
    cases o with
    | event e => exact absurd rfl (other e)
    | answering state transition => rfl
    | furnish factory => rfl
  by_cases isStep : e = .step
  · subst isStep
    obtain ⟨asked, deferred⟩ := kept_step orderly fun frame rest task values turn => alone.unasking idle turn
    refine Or.inl ⟨rfl, asked.trans asking.asked, outside_step orderly outside asking.open_, fun member => ?_⟩
    rcases deferred promise member with old | new
    · exact asking.apart old
    · exact absurd inside (Nat.not_lt_of_le new)
  have tamed (silent : s.heard? (.event e) = none) (tames : s.Tames (s.happen e)) : s.heard? (.event e) = none ∧
      (s.happen e).Asking promise := by
    refine ⟨silent, tames.asked.trans asking.asked, ?_, fun member => ?_⟩
    · rw [tames.grows.extends.schedule.outcome inside, asking.open_]
    · rcases tames.grows.deferred promise member with old | new
      · exact asking.apart old
      · exact absurd inside (Nat.not_lt_of_le new)
  cases e with
  | hear line =>
    have happened : s.happen (.hear line) =
        { s with asked := none, schedule := s.schedule.settle promise (.ok (line.toList.map .text)) } := by
      simp only [happen, hear, asking.asked]
    refine Or.inr ⟨line, by simp [heard?, asking.asked], ?_, ?_⟩ <;> rw [occur, happened]
    exact Schedule.outcome?_settle_self ⟨inside, asking.open_⟩ _
  | answer index outcome =>
    left
    simp only [occur, happen, answer]
    split
    · exact ⟨rfl, asking⟩
    next id deferred =>
      have member : id ∈ s.deferred := List.mem_of_getElem? (Option.eq_some_of_filter_eq_some deferred)
      have different : id ≠ promise := fun same => asking.apart (same ▸ member)
      refine ⟨rfl, asking.asked, ?_, asking.apart⟩
      cases settled : (s.schedule.settle id outcome).outcome? promise with
      | none => rfl
      | some given => exact absurd (settles_own asking.open_ settled).1 different
  | step => exact absurd rfl isStep
  | coordinate entry config => exact Or.inl (tamed rfl (tames_outside aside rfl))
  | call config given => exact Or.inl (tamed rfl (tames_outside aside rfl))
  | execute place name params => exact Or.inl (tamed rfl (tames_outside aside rfl))
  | register name place => exact Or.inl (tamed rfl (tames_outside aside rfl))
  | drain => exact Or.inl (tamed rfl (tames_outside aside rfl))
  | write store => exact Or.inl (tamed rfl (tames_outside aside rfl))
  | _ => cases aside

/-- Whether a promise is one that never fails, because it waits for all its members whatever they end with. -/
structure Patient (s : Session) (promise : Nat) : Prop where
  role : ∃ members, s.schedule.role? promise = some (.join members true)
  unfailing : ∀ fault, s.schedule.outcome? promise ≠ some (.error fault)

theorem Patient.occur (patient : s.Patient promise) (orderly : s.Orderly s.running) (o : Occasion) :
    (s.occur o).Patient promise := by
  obtain ⟨⟨members, role⟩, unfailing⟩ := patient
  obtain ⟨_, held, _⟩ := Option.map_eq_some_iff.mp role
  have inside := Schedule.origin?_inside held
  refine ⟨⟨members, ((occur_keeps orderly o).2.2 promise inside).trans role⟩, fun fault failed => ?_⟩
  have noTask {frames : List Frame} {supply : Supply} (stands : s.Stands promise frames supply) : False := by
    obtain ⟨_, _, task⟩ := stands.alive orderly
    cases role.symm.trans (Schedule.role?_origin task)
  rcases settles_occur orderly o inside failed with before | ⟨e, rfl, settles⟩
  · exact unfailing fault before
  · cases settles with
    | failed _ turn _ => exact noTask (.turn turn)
    | told stands _ => exact noTask stands
    | broken join _ _ => cases role.symm.trans join
    | outside origin => cases role.symm.trans (Schedule.role?_outside.mpr origin)

/-- A promise that is open after a step of a task, before that goes on, stays so. -/
theorem open_step (orderly : s.Orderly s.running) {task : Nat} {frame : Frame} {rest : List Frame} {values : List Value}
    (turn : s.turn = some { task, frames := frame :: rest, values }) (new : s.schedule.promises.size ≤ promise)
    {origin : Origin Frame} (held : (s.takeStep frame values).1.schedule.origin? promise = some origin)
    (open_ : (s.takeStep frame values).1.schedule.outcome? promise = none) :
    (s.happen .step).schedule.role? promise = some origin.role ∧ (s.happen .step).schedule.outcome? promise = none := by
  have inside := ((Stands.turn turn).alive orderly).1.1
  exact ⟨(enlarges_step orderly turn).origin held, unsettled_step turn (Nat.ne_of_gt (Nat.lt_of_lt_of_le inside new)) open_⟩

/-- Whether all that is tracked has ended. -/
def Rested (s : Session) : Prop :=
  ∀ id ∈ s.tracked, s.schedule.outcome? id ≠ none

/-- A drain goes on when all that is tracked has ended, and waits patiently until then. -/
theorem step_drain (orderly : s.Orderly s.running) {task : Nat} {rest : List Frame} {values : List Value}
    (turn : s.turn = some { task, frames := .drain :: rest, values }) :
    ((s.takeStep .drain values).2 = .yield [] ∧ (s.happen .step).Rested) ∨
      ∃ promise, (s.takeStep .drain values).2 = .await promise [.drain] ∧
        (s.takeStep .drain values).1.schedule.outcome? promise = none ∧ (s.happen .step).Patient promise := by
  by_cases pending : s.tracked.filter s.schedule.isPending = []
  · have yields : s.drain = (s, .yield []) := by rw [drain, pending]
    refine Or.inl ⟨by rw [takeStep, yields], fun id tracked open_ => ?_⟩
    rw [happen_step turn, takeStep, yields] at tracked open_
    have before : s.schedule.outcome? id = none := (Schedule.outcome?_suspend ..).symm.trans open_
    have among : id ∈ s.tracked.filter s.schedule.isPending :=
      List.mem_filter.mpr ⟨tracked, by rw [Schedule.isPending, before]; rfl⟩
    rw [pending] at among
    cases among
  · have waits : s.drain = ((s.scheduled (·.join (s.tracked.filter s.schedule.isPending) true)).1,
        .await s.schedule.promises.size [.drain]) := by
      unfold drain
      split
      next none => exact absurd none pending
      next => simp only [scheduled, Schedule.snd_join]
    obtain ⟨origin, open_⟩ := s.schedule.origin?_join pending true
    have taken := congrArg Prod.fst waits
    have held := (congrArg (fun t : Session => t.schedule.origin? s.schedule.promises.size) taken).trans origin
    have unsettled := (congrArg (fun t : Session => t.schedule.outcome? s.schedule.promises.size) taken).trans open_
    obtain ⟨role, still⟩ := open_step orderly turn (Nat.le_refl _) held unsettled
    refine Or.inr ⟨_, by rw [takeStep, waits], unsettled, ⟨_, role⟩, fun fault failed => ?_⟩
    cases still.symm.trans failed

theorem step_ask (orderly : s.Orderly s.running) {task : Nat} {rest : List Frame} {values : List Value}
    (turn : s.turn = some { task, frames := .ask :: rest, values }) :
    (s.takeStep .ask values).2 = .await s.schedule.promises.size [.hear] ∧
      (s.takeStep .ask values).1.schedule.outcome? s.schedule.promises.size = none ∧
      (s.happen .step).Asking s.schedule.promises.size ∧
        (s.happen .step).Stands task (.hear :: rest) (.promise s.schedule.promises.size) := by
  have origin : (s.takeStep .ask values).1.schedule.origin? s.schedule.promises.size = some .outside :=
    (Schedule.origin?_add ..).trans (if_pos rfl)
  have open_ : (s.takeStep .ask values).1.schedule.outcome? s.schedule.promises.size = none :=
    (Schedule.outcome?_add ..).trans (if_pos rfl)
  obtain ⟨asked, deferred⟩ := kept_move (s.takeStep .ask values).1 task rest (s.takeStep .ask values).2
  rw [← happen_step turn] at asked deferred
  refine ⟨rfl, open_, ⟨asked, (open_step orderly turn (Nat.le_refl _) origin open_).2, fun member => ?_⟩, ?_⟩
  · have old : s.schedule.promises.size ∈ s.deferred := deferred ▸ member
    exact absurd (Schedule.origin?_inside (orderly.deferred _ old)) (Nat.lt_irrefl _)
  · obtain ⟨⟨inside, _⟩, frames, own⟩ := (Stands.turn turn).alive orderly
    have extended := (Grows.takeStep s .ask values orderly.tracked).extends
    rw [happen_step turn]
    exact stands_await ⟨frames, (extended.schedule.origin inside).trans own⟩ ⟨Schedule.origin?_inside origin, open_⟩ [.hear] rest

/-- What a step of a task leads to: to where it stands then, or to the end of it. -/
structure Leads (s : Session) (stage : List Frame → Supply → Prop) (ended : Outcome → Prop) (frame : Frame) (rest : List Frame)
    (values : List Value) : Prop where
  goes : ∀ next before, (s.takeStep frame values).2.stand? = some (next, before) → stage (next ++ rest) before
  fails : ∀ fault, ((s.takeStep frame values).2 = .fail fault ∨ ∃ promise next, (s.takeStep frame values).2 = .await promise next ∧
    (s.takeStep frame values).1.schedule.outcome? promise = some (.error fault)) → ended (.error fault)

namespace Leads

variable {stage : List Frame → Supply → Prop} {ended : Outcome → Prop} {frame : Frame} {rest : List Frame} {values : List Value}
  {task : Nat}

theorem on (next : List Frame) (before : Supply) (stand : (s.takeStep frame values).2.stand? = some (next, before))
    (open_ : ∀ promise, before = .promise promise → (s.takeStep frame values).1.schedule.outcome? promise = none)
    (stands : stage (next ++ rest) before) : s.Leads stage ended frame rest values := by
  refine ⟨fun others other same => ?_, fun fault failed => ?_⟩
  · cases stand.symm.trans same
    exact stands
  · rcases failed with failed | ⟨promise, others, waits, failed⟩
    · rw [failed] at stand
      cases stand
    · rw [waits] at stand
      cases stand
      cases (open_ promise rfl).symm.trans failed

theorem at_once (next : List Frame) (given : List Value) (stand : (s.takeStep frame values).2.stand? = some (next, .values given))
    (stands : stage (next ++ rest) (.values given)) : s.Leads stage ended frame rest values :=
  .on next (.values given) stand (by simp) stands

theorem broken {fault : Fault} (moved : (s.takeStep frame values).2 = .fail fault) (fails : ended (.error fault)) :
    s.Leads stage ended frame rest values := by
  refine ⟨fun others other same => ?_, fun other failed => ?_⟩
  · rw [moved] at same
    cases same
  · rcases failed with failed | ⟨promise, others, waits, _⟩
    · cases moved.symm.trans failed
      exact fails
    · cases moved.symm.trans waits

theorem drain (orderly : s.Orderly s.running) (turn : s.turn = some { task, frames := .drain :: rest, values })
    (waits : ∀ promise, (s.happen .step).Patient promise → stage (.drain :: rest) (.promise promise))
    (goes : (s.happen .step).Rested → stage rest (.values [])) : s.Leads stage ended .drain rest values := by
  rcases step_drain orderly turn with ⟨moved, rested⟩ | ⟨promise, moved, open_, patient⟩
  · exact .at_once [] [] (by rw [moved]; rfl) (goes rested)
  · refine .on [.drain] (.promise promise) (by rw [moved]; rfl) ?_ (waits promise patient)
    rintro _ ⟨⟩
    exact open_

theorem stands (leads : s.Leads stage ended frame rest values) (orderly : s.Orderly s.running)
    (turn : s.turn = some { task, frames := frame :: rest, values })
    (supplied : ∀ frames before after, stage frames before → (s.happen .step).Supplied before after → stage frames after)
    {frames : List Frame} {supply : Supply} (stands : (s.happen .step).Stands task frames supply) : stage frames supply := by
  obtain ⟨next, before, stand, rfl, given⟩ := stands_own orderly turn stands
  apply supplied _ before _ (leads.goes next before stand)
  apply given.imp_right
  rintro ⟨id, values, same, settled, fed⟩
  exact ⟨id, values, same, ((enlarges_step orderly turn).settled (by simp [settled])).trans settled, fed⟩

theorem settles (leads : s.Leads stage ended frame rest values) (orderly : s.Orderly s.running)
    (turn : s.turn = some { task, frames := frame :: rest, values }) {outcome : Outcome}
    (settled : (s.happen .step).schedule.outcome? task = some outcome) : ended outcome := by
  obtain ⟨fault, rfl, failed⟩ := settles_step orderly turn settled
  exact leads.fails fault failed

end Leads

theorem Rested.occur (rested : s.Rested) (orderly : s.Orderly s.running)
    (silent : ∀ u operation, s.met? o ≠ some (.operate u operation)) : (s.occur o).Rested := by
  intro id tracked
  have settled := rested id (tracked_silent orderly silent tracked)
  rwa [(occur_keeps orderly o).2.1 id settled]

end Interaction.Session
