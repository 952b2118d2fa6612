import Interaction.Proofs.Leading
import Interaction.Proofs.Tracking

/-! Who waits for the work that the behaviour of a transition starts. Each of its promises is
waited for by one of its tasks, alone or together with others; only a join that has failed
leaves its members to themselves. -/

namespace Interaction

namespace Session

variable {s : Session}

theorem mapEach_cases (s : Session) (mapping : Value) (values : List Value) (frames : List Frame) :
    s.mapEach mapping values frames = (s, .go frames values) ∨
      s.mapEach mapping values frames = (s.fan mapping values, .await (s.schedule.promises.size + values.length) frames) := by
  rcases items?_cases s.store mapping with unmapped | ⟨first, rest, mapped⟩
  · exact Or.inl (mapEach_unmapped unmapped values frames)
  · exact Or.inr (mapEach_mapped mapped values frames)

/-- Whether a step starts work, and what it waits for then. -/
inductive Begets (s : Session) (frame : Frame) (values : List Value) : Prop where
  | nothing (none : s.offspring frame values = [])
  /-- Parameters are mapped side by side. -/
  | fan {mapping : Value} {items : List Value} {next : List Frame}
      (taken : s.takeStep frame values = (s.fan mapping items, .await (s.schedule.promises.size + items.length) next))
      (started : s.offspring frame values = List.range' s.schedule.promises.size (items.length + 1))
  /-- A service or the behaviour of a state answers with a promise. -/
  | single {id : Nat} {next : List Frame} (taken : (s.takeStep frame values).2 = .await id next)
      (started : s.offspring frame values = [id])
      (alone : (s.takeStep frame values).1.schedule.members? id = none)
      (work : ∀ frames, (s.takeStep frame values).1.schedule.origin? id = some (.task frames) →
        ∀ frame ∈ frames, frame.isWork = true)

theorem offspring_same {frame : Frame} {values : List Value}
    (started : s.offspring frame values = List.range' s.schedule.promises.size
      ((s.takeStep frame values).1.schedule.promises.size - s.schedule.promises.size))
    (same : (s.takeStep frame values).1.schedule = s.schedule) : s.offspring frame values = [] := by
  rw [started, same, Nat.sub_self]
  rfl

theorem begets_nothing {frame : Frame} {values : List Value}
    (started : s.offspring frame values = List.range' s.schedule.promises.size
      ((s.takeStep frame values).1.schedule.promises.size - s.schedule.promises.size))
    (same : (s.takeStep frame values).1.schedule = s.schedule) : s.Begets frame values :=
  .nothing (offspring_same started same)

theorem begets_mapEach {frame : Frame} {values items : List Value} {mapping : Value} {next : List Frame}
    (started : s.offspring frame values = List.range' s.schedule.promises.size
      ((s.takeStep frame values).1.schedule.promises.size - s.schedule.promises.size))
    (taken : s.takeStep frame values = s.mapEach mapping items next) : s.Begets frame values := by
  rcases s.mapEach_cases mapping items next with same | same
  · exact begets_nothing started (by rw [taken, same])
  · refine .fan (taken.trans same) (started.trans ?_)
    rw [taken, same, size_fan]
    congr 1
    omega

theorem isWork_of_isLate {frame : Frame} (late : frame.isLate = true) : frame.isWork = true := by
  cases frame with
  | pause => rfl
  | act action request => rfl
  | _ => cases late

/-- The behaviour of a state answers with the one task that it starts, if it starts any. -/
theorem begets_enterState (target : Value) (values : List Value) : s.Begets (.enterState target) values := by
  have started := Starts.executeState s (s.store.field target "do")
  have born : s.offspring (.enterState target) values = List.range' s.schedule.promises.size
    ((s.takeStep (.enterState target) values).1.schedule.promises.size - s.schedule.promises.size) := rfl
  have only := started.only
  have idle (none : ∀ id, (s.executeState (s.store.field target "do")).2 ≠ .ok (some id))
      (same : (s.takeStep (.enterState target) values).1 = (s.executeState (s.store.field target "do")).1) :
      s.Begets (.enterState target) values := by
    refine .nothing ?_
    rw [born, same, List.range'_eq_nil_iff]
    apply Classical.byContradiction
    intro more
    exact none _ ((only s.schedule.promises.size).mpr (by omega))
  have launched := started.launched
  rcases answered : s.executeState (s.store.field target "do") with ⟨t, fault | (_ | id)⟩
  · exact idle (by simp [answered]) (by simp only [takeStep, answered])
  · exact idle (by simp [answered]) (by simp only [takeStep, answered])
  · rw [answered] at only launched
    have taken : s.takeStep (.enterState target) values = (t, .await id []) := by simp only [takeStep, answered]
    have own := (only id).mp rfl
    have next := only (s.schedule.promises.size + 1)
    have first := only s.schedule.promises.size
    simp only [Except.ok.injEq, Option.some.injEq] at own next first
    have one : t.schedule.promises.size - s.schedule.promises.size = 1 := by omega
    refine .single (by rw [taken]) ?_ (by rw [taken]; exact (launched id rfl).own.single) ?_
    · rw [born, taken]
      dsimp only
      rw [one, first.mpr (by omega)]
      rfl
    · rw [taken]
      exact fun frames held => ((launched id rfl).own.ready frames held).2

theorem begets {frame : Frame} (work : frame.isWork = true) (values : List Value) : s.Begets frame values := by
  cases frame with
  | invoke config given => exact begets_nothing rfl (by rw [takeStep, fst_invoke])
  | map target => exact begets_mapEach rfl rfl
  | call target =>
    cases replied : s.reply target values with
    | promise id =>
      have answers := answers_reply s target values replied
      have taken : (s.takeStep (.call target) values).2 = .await id [.follow target.config] := by
        rw [takeStep, snd_callTarget, replied]
      refine .single taken (by rw [offspring, replied]) (Schedule.members?_eq_none.mpr answers.alone) ?_
      exact fun frames held frame member => isWork_of_isLate (answers.late frames held frame member)
    | steps frames => exact .nothing (by rw [offspring, replied])
    | plain v => exact .nothing (by rw [offspring, replied])
    | fault fault => exact .nothing (by rw [offspring, replied])
  | follow config =>
    apply begets_nothing rfl
    simp only [takeStep, followCall]
    split <;> rfl
  | mapItem mapping index value =>
    apply begets_nothing rfl
    simp only [takeStep]
    split <;> rfl
  | materialize config =>
    rcases s.fetch_cases config [] [.arrange config] _ with ⟨fault, same⟩ | ⟨inner, _, same⟩ | ⟨params, same⟩
    · exact begets_nothing rfl (congrArg (·.1.schedule) same)
    · exact begets_nothing rfl (congrArg (·.1.schedule) same)
    · exact begets_mapEach rfl same
  | arrange config =>
    rcases s.arrange_cases config values with same | ⟨items, same⟩
    · exact begets_nothing rfl (congrArg (·.1.schedule) same)
    · exact begets_mapEach rfl same
  | place config whole => exact begets_nothing rfl (s.schedule_place config whole values)
  | await promise => exact begets_nothing rfl rfl
  | enterState target => exact begets_enterState target values
  | pause => exact begets_nothing rfl rfl
  | act action request => exact .nothing rfl
  | fail fault => exact begets_nothing rfl rfl
  | _ => cases work

theorem work_step {frame : Frame} (work : frame.isWork = true) (values : List Value) {frames : List Frame}
    {supply : Supply} (stands : (s.takeStep frame values).2.stand? = some (frames, supply)) :
    ∀ frame ∈ frames, frame.isWork = true := by
  cases leading_step stands with
  | @steps target late replied =>
    refine List.forall_mem_append.mpr ⟨fun frame member => ?_, by simp [Frame.isWork]⟩
    exact isWork_of_isLate (late_reply s target values replied frame member)
  | _ => simp [Frame.isWork] at work ⊢

/-- Whether a task waits for a promise, or is about to. -/
inductive Awaits (s : Session) (task id : Nat) : Prop where
  | waiting {frames : List Frame} (stands : s.Stands task frames (.promise id))
  | next {rest : List Frame} {values : List Value} (stands : s.Stands task (.await id :: rest) (.values values))

theorem Awaits.alive {task id : Nat} (awaits : s.Awaits task id) (orderly : s.Orderly s.running) :
    s.schedule.outcome? task = none := by
  cases awaits with
  | waiting stands => exact (stands.alive orderly).1.2
  | next stands => exact (stands.alive orderly).1.2

theorem awaits_happen (orderly : s.Orderly s.running) (e : Event) {task id : Nat} (inside : id < s.schedule.promises.size)
    (awaits : s.Awaits task id) : (s.happen e).Awaits task id ∨ s.schedule.outcome? id ≠ none := by
  by_cases settled : s.schedule.outcome? id = none
  · left
    cases awaits with
    | waiting stands =>
      rcases stands_happen_on orderly e stands with ⟨after, later, told⟩ | ⟨_, _, same, ended, _⟩ | ⟨rfl, own⟩
      · rcases told with rfl | ⟨_, _, same, ended, _⟩
        · exact .waiting later
        · cases same
          cases settled.symm.trans ended
      · cases same
        cases settled.symm.trans ended
      · obtain ⟨⟨_, frames, values⟩, turn, rfl⟩ := Option.map_eq_some_iff.mp own
        cases (stands.of_turn orderly turn).2
    | @next rest values stands =>
      rcases stands_happen_on orderly e stands with ⟨after, later, told⟩ | ⟨_, _, same, _⟩ | ⟨rfl, own⟩
      · rcases told with rfl | ⟨_, _, same, _⟩
        · exact .next later
        · cases same
      · cases same
      · obtain ⟨⟨_, frames, given⟩, turn, rfl⟩ := Option.map_eq_some_iff.mp own
        obtain ⟨rfl, -⟩ := stands.of_turn orderly turn
        rw [happen_step turn]
        exact .waiting (stands_await (stands.alive orderly).2 ⟨inside, settled⟩ [] rest)
  · exact Or.inr settled

/-- Whether whoever waits for one promise waits for the other. -/
def Covers (s : Session) (carrier id : Nat) : Prop :=
  carrier = id ∨ ∃ members, s.schedule.members? carrier = some members ∧ id ∈ members

theorem Covers.later {t : Session} {carrier id : Nat} (covers : s.Covers carrier id) (enlarged : s.Enlarges t)
    (inside : carrier < s.schedule.promises.size) : t.Covers carrier id := by
  rwa [Covers, enlarged.members inside]

/-- What mapping parameters starts: a task for each of them, and the promise that waits for the
tasks. -/
theorem fan_cases (s : Session) (mapping : Value) (items : List Value) {id : Nat}
    (member : id ∈ List.range' s.schedule.promises.size (items.length + 1)) :
    (id ∈ List.range' s.schedule.promises.size items.length ∧ ∃ index value,
      (s.fan mapping items).schedule.origin? id = some (.task [.mapItem mapping index value])) ∨
    id = s.schedule.promises.size + items.length := by
  obtain ⟨new, bounded⟩ := List.mem_range'_1.mp member
  obtain ⟨index, rfl⟩ := Nat.exists_eq_add_of_le new
  by_cases within : index < items.length
  · refine Or.inl ⟨List.mem_range'_1.mpr ⟨new, by omega⟩, index, items[index], ?_⟩
    exact (fan_item s mapping items within).1
  · exact Or.inr (by omega)

theorem members?_fan (s : Session) (mapping : Value) (items : List Value) :
    (s.fan mapping items).schedule.members? (s.schedule.promises.size + items.length) =
      if items = [] then none else some (List.range' s.schedule.promises.size items.length) := by
  split
  next empty =>
    subst empty
    exact Schedule.members?_origin (fan_nil s mapping).1
  next nonempty => exact Schedule.members?_origin (fan_join s mapping nonempty).1

variable {own : Nat} {frame : Frame} {rest : List Frame} {values : List Value}

theorem awaits_step (orderly : s.Orderly s.running) (turn : s.turn = some { task := own, frames := frame :: rest, values })
    {id : Nat} {next : List Frame} (taken : (s.takeStep frame values).2 = .await id next)
    (unsettled : (s.takeStep frame values).1.schedule.Open id) : (s.happen .step).Awaits own id := by
  rw [happen_step turn, taken]
  exact .waiting (stands_await (takeStep_there orderly turn) unsettled next rest)

theorem held_step (orderly : s.Orderly s.running) (turn : s.turn = some { task := own, frames := frame :: rest, values })
    (work : frame.isWork = true) {id : Nat} (member : id ∈ s.offspring frame values)
    (unsettled : (s.happen .step).schedule.outcome? id = none) :
    ∃ carrier ∈ s.offspring frame values, (s.happen .step).Covers carrier id ∧ (s.happen .step).Awaits own carrier := by
  have enlarged := enlarges_step orderly turn
  cases begets work values with
  | nothing none =>
    rw [none] at member
    cases member
  | @fan mapping items next taken started =>
    rw [started] at member ⊢
    have last : s.schedule.promises.size + items.length ∈ List.range' s.schedule.promises.size (items.length + 1) :=
      List.mem_range'_1.mpr ⟨Nat.le_add_right .., by omega⟩
    have session : (s.takeStep frame values).1 = s.fan mapping items := by rw [taken]
    by_cases empty : items = []
    · -- Without parameters there is only the promise, and that is settled at once.
      subst empty
      have first : id = s.schedule.promises.size := by
        obtain ⟨low, high⟩ := List.mem_range'_1.mp member
        exact Nat.le_antisymm (Nat.le_of_lt_succ high) low
      have ended := (fan_nil s mapping).2
      rw [← first, ← session] at ended
      cases ended.symm.trans (enlarged.unsettled unsettled)
    · obtain ⟨origin, open_⟩ := fan_join s mapping empty
      have inside := Schedule.origin?_inside origin
      rw [← session] at inside open_
      refine ⟨_, last, ?_, awaits_step orderly turn (by rw [taken]) ⟨inside, open_⟩⟩
      rcases s.fan_cases mapping items member with ⟨among, _⟩ | rfl
      · refine Or.inr ⟨_, ?_, among⟩
        rw [enlarged.members inside, session, members?_fan, if_neg empty]
      · exact Or.inl rfl
  | @single other next taken started alone tasks =>
    rw [started, List.mem_singleton] at member
    subst member
    have inside := (mem_offspring (started ▸ List.mem_singleton_self id)).2
    refine ⟨id, started ▸ List.mem_singleton_self id, Or.inl rfl, ?_⟩
    exact awaits_step orderly turn taken ⟨inside, enlarged.unsettled unsettled⟩

theorem joined_step (orderly : s.Orderly s.running) (turn : s.turn = some { task := own, frames := frame :: rest, values })
    (work : frame.isWork = true) {id : Nat} (member : id ∈ s.offspring frame values) {members : List Nat}
    (same : (s.happen .step).schedule.members? id = some members) : ∀ other ∈ members, other ∈ s.offspring frame values := by
  rw [(enlarges_step orderly turn).members (mem_offspring member).2] at same
  cases begets work values with
  | nothing none =>
    rw [none] at member
    cases member
  | @fan mapping items next taken started =>
    rw [started] at member ⊢
    rw [show (s.takeStep frame values).1 = s.fan mapping items by rw [taken]] at same
    rcases s.fan_cases mapping items member with ⟨_, index, value, origin⟩ | rfl
    · cases (Schedule.members?_origin origin).symm.trans same
    · rw [members?_fan] at same
      split at same <;> cases same
      intro other among
      obtain ⟨low, high⟩ := List.mem_range'_1.mp among
      exact List.mem_range'_1.mpr ⟨low, by omega⟩
  | single taken started alone tasks =>
    rw [started, List.mem_singleton] at member
    subst member
    cases alone.symm.trans same

theorem work_offspring (work : frame.isWork = true) {id : Nat} (member : id ∈ s.offspring frame values)
    {frames : List Frame} (origin : (s.takeStep frame values).1.schedule.origin? id = some (.task frames)) :
    ∀ frame ∈ frames, frame.isWork = true := by
  cases begets work values with
  | nothing none =>
    rw [none] at member
    cases member
  | @fan mapping items next taken started =>
    rw [started] at member
    rw [show (s.takeStep frame values).1 = s.fan mapping items by rw [taken]] at origin
    rcases s.fan_cases mapping items member with ⟨_, index, value, item⟩ | rfl
    · cases item.symm.trans origin
      simp [Frame.isWork]
    · by_cases empty : items = []
      · subst empty
        cases (fan_nil s mapping).1.symm.trans origin
      · cases (fan_join s mapping empty).1.symm.trans origin
  | single taken started alone tasks =>
    rw [started, List.mem_singleton] at member
    subst member
    exact tasks frames origin

end Session

/-- What is true of an account of the behaviour of a transition. -/
structure Account.Tended (root : Nat) (a : Account) : Prop where
  orderly : a.session.Orderly a.session.running
  inside : ∀ id ∈ a.family, id < a.session.schedule.promises.size
  work : ∀ task ∈ a.family, ∀ frames supply, a.session.Stands task frames supply →
    ∀ frame ∈ frames, frame.isWork = true
  joined : ∀ join ∈ a.family, ∀ members, a.session.schedule.members? join = some members →
    ∀ member ∈ members, member ∈ a.family
  held : ∀ id ∈ a.family, a.session.schedule.outcome? id = none → id = root ∨
    ∃ carrier ∈ a.family, a.session.Covers carrier id ∧ (a.session.schedule.outcome? carrier ≠ none ∨
      ∃ task ∈ a.family, (task < id ∨ task = root) ∧ a.session.Awaits task carrier)

namespace Account.Tended

variable {root : Nat} {a : Account}

theorem held_happen (tended : a.Tended root) (e : Event) {id : Nat} (member : id ∈ a.family)
    (unsettled : (a.session.happen e).schedule.outcome? id = none) : id = root ∨
    ∃ carrier ∈ a.family, (a.session.happen e).Covers carrier id ∧
      ((a.session.happen e).schedule.outcome? carrier ≠ none ∨
        ∃ task ∈ a.family, (task < id ∨ task = root) ∧ (a.session.happen e).Awaits task carrier) := by
  have enlarged := tended.orderly.enlarges e
  rcases tended.held id member (enlarged.unsettled unsettled) with own | ⟨carrier, among, covers, waits⟩
  · exact Or.inl own
  have inside := tended.inside carrier among
  refine Or.inr ⟨carrier, among, covers.later enlarged inside, ?_⟩
  have still (settled : a.session.schedule.outcome? carrier ≠ none) :
      (a.session.happen e).schedule.outcome? carrier ≠ none := by rwa [enlarged.settled settled]
  rcases waits with settled | ⟨task, isTask, order, awaits⟩
  · exact Or.inl (still settled)
  · rcases Session.awaits_happen tended.orderly e inside awaits with later | settled
    · exact Or.inr ⟨task, isTask, order, later⟩
    · exact Or.inl (still settled)

theorem aside (tended : a.Tended root) (e : Event)
    (others : ∀ task frame rest values, e = .step →
      a.session.turn = some { task, frames := frame :: rest, values } → task ∉ a.family) :
    ({ a with session := a.session.happen e } : Account).Tended root where
  orderly := tended.orderly.happen e
  inside id member := Nat.lt_of_lt_of_le (tended.inside id member) (tended.orderly.enlarges e).size
  work task member frames supply stands := by
    rcases Session.stands_happen tended.orderly e (tended.inside task member) stands with
      ⟨before, stood, _⟩ | ⟨isStep, frame, rest, values, turn, _⟩
    · exact tended.work task member frames before stood
    · exact absurd member (others task frame rest values isStep turn)
  joined join member members same := by
    rw [(tended.orderly.enlarges e).members (tended.inside join member)] at same
    exact tended.joined join member members same
  held id member unsettled := tended.held_happen e member unsettled

theorem step (tended : a.Tended root) {own : Nat} {frame : Frame} {rest : List Frame} {values : List Value}
    (turn : a.session.turn = some { task := own, frames := frame :: rest, values }) (among : own ∈ a.family)
    (deeds : List Deed) :
    ({ session := a.session.happen .step, family := a.family ++ a.session.offspring frame values, deeds } : Account).Tended
      root where
  orderly := tended.orderly.happen .step
  inside id member := by
    rcases List.mem_append.mp member with old | new
    · exact Nat.lt_of_lt_of_le (tended.inside id old) (tended.orderly.enlarges .step).size
    · exact Session.offspring_inside tended.orderly turn new
  work task member frames supply stands := by
    have first := tended.work own among _ _ (.turn turn)
    have work := first frame (List.mem_cons_self ..)
    rcases List.mem_append.mp member with old | new
    · rcases Session.stands_happen tended.orderly .step (tended.inside task old) stands with
        ⟨before, stood, _⟩ | ⟨_, frame', rest', values', turn', next, before, left, rfl, _⟩
      · exact tended.work task old frames before stood
      · cases turn.symm.trans turn'
        intro f isNext
        rcases List.mem_append.mp isNext with fresh | kept
        · exact Session.work_step work values left f fresh
        · exact first f (List.mem_cons_of_mem _ kept)
    · obtain ⟨_, origin⟩ := Session.stands_new tended.orderly turn (Session.mem_offspring new).1 stands
      exact Session.work_offspring work new origin
  joined join member members same other isOther := by
    have work := tended.work own among _ _ (.turn turn) frame (List.mem_cons_self ..)
    rcases List.mem_append.mp member with old | new
    · rw [(tended.orderly.enlarges .step).members (tended.inside join old)] at same
      exact List.mem_append_left _ (tended.joined join old members same other isOther)
    · exact List.mem_append_right _ (Session.joined_step tended.orderly turn work new same other isOther)
  held id member unsettled := by
    have work := tended.work own among _ _ (.turn turn) frame (List.mem_cons_self ..)
    rcases List.mem_append.mp member with old | new
    · rcases tended.held_happen .step old unsettled with same | ⟨carrier, isCarrier, covers, waits⟩
      · exact Or.inl same
      · refine Or.inr ⟨carrier, List.mem_append_left _ isCarrier, covers, waits.imp_right ?_⟩
        rintro ⟨task, isTask, rest⟩
        exact ⟨task, List.mem_append_left _ isTask, rest⟩
    · obtain ⟨carrier, isCarrier, covers, awaits⟩ := Session.held_step tended.orderly turn work new unsettled
      have before : own < id := Nat.lt_of_lt_of_le (tended.inside own among) (Session.mem_offspring new).1
      exact Or.inr ⟨carrier, List.mem_append_right _ isCarrier, covers,
        Or.inr ⟨own, List.mem_append_left _ among, Or.inl before, awaits⟩⟩

theorem happen (tended : a.Tended root) (e : Event) : (a.happen e).Tended root := by
  rcases a.happen_cases e with ⟨own, frame, rest, values, rfl, turn, member, same⟩ | ⟨same, others⟩
  · rw [same]
    exact tended.step turn member _
  · rw [same]
    exact tended.aside e others

theorem run (tended : a.Tended root) (events : List Event) : (a.run events).Tended root := by
  induction events generalizing a with
  | nil => exact tended
  | cons e rest ih => exact ih (tended.happen e)

/-- Once the first promise is settled, so is all of the family, unless a join has failed and left
members behind. -/
theorem complete (tended : a.Tended root) (ended : a.session.schedule.outcome? root ≠ none)
    (left : ∀ join ∈ a.family, ∀ members fault, a.session.schedule.members? join = some members →
      a.session.schedule.outcome? join = some (.error fault) →
      ∀ member ∈ members, a.session.schedule.outcome? member ≠ none) :
    ∀ id ∈ a.family, a.session.schedule.outcome? id ≠ none := by
  intro id
  -- A task that waits for others was there before them, but for the first.
  induction id using Nat.strongRecOn with
  | ind id ih =>
    intro member unsettled
    rcases tended.held id member unsettled with rfl | ⟨carrier, among, covers, waits⟩
    · exact ended unsettled
    rcases waits with settled | ⟨task, isTask, order, awaits⟩
    · rcases covers with rfl | ⟨members, joined, isMember⟩
      · exact settled unsettled
      obtain ⟨outcome, same⟩ := Option.ne_none_iff_exists'.mp settled
      cases outcome with
      | ok values =>
        obtain ⟨_, _, origin⟩ := Schedule.members?_eq_some.mp joined
        exact (tended.orderly.schedule.whole _ _ _ _ origin values same).2 id isMember unsettled
      | error fault => exact left carrier among members fault joined same id isMember unsettled
    · have open_ := awaits.alive tended.orderly
      rcases order with before | rfl
      · exact ih task before isTask open_
      · exact ended open_

theorem rest (tended : a.Tended root) (settled : ∀ id ∈ a.family, a.session.schedule.outcome? id ≠ none)
    (events : List Event) : (a.run events).family = a.family ∧ (a.run events).deeds = a.deeds := by
  induction events generalizing a with
  | nil => exact ⟨rfl, rfl⟩
  | cons e rest ih =>
    rcases a.happen_cases e with ⟨own, frame, steps, values, rfl, turn, member, _⟩ | ⟨same, _⟩
    · have alive := ((Session.Stands.turn turn).alive tended.orderly).1
      exact absurd alive.2 (settled own member)
    · have later : ∀ id ∈ (a.happen e).family, (a.happen e).session.schedule.outcome? id ≠ none := by
        rw [same]
        intro id member
        rw [(tended.orderly.enlarges e).settled (settled id member)]
        exact settled id member
      obtain ⟨family, deeds⟩ := ih (tended.happen e) later
      exact ⟨family.trans (by rw [same]), deeds.trans (by rw [same])⟩

end Account.Tended

end Interaction
