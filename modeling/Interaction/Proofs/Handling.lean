import Interaction.Proofs.PendingSituations

/-! Lines of input that are handled one after the other. While a line is handled the machine is asked for
one thing at most, all that is handed over is commissioned by that, and everything has ended before the
next line. -/

namespace Interaction

/-- Whether an occasion leaves the machine and its behaviour alone, but for what tasks do. -/
def Occasion.isServing (o : Occasion) : Bool :=
  o.isAside && o.isIndirect

theorem Occasion.isServing_iff {o : Occasion} : o.isServing = true ↔ o.isAside = true ∧ o.isIndirect = true := by
  rw [isServing, Bool.and_eq_true]

theorem Occasion.isIndirect_command (text : String) : (Occasion.event (.command text)).isIndirect = true :=
  rfl

def Milestone.isOperation : Milestone → Bool
  | .operate _ _ => true
  | _ => false

namespace Session

variable {s : Session} {o : Occasion} {own : Nat} {text : String} {news : List Milestone} {frames : List Frame} {supply : Supply}

theorem tracked_raised {operation : Operation} {fault : Fault} (orderly : s.Orderly s.running)
    (met : s.met? o = some (.operate s operation)) (raised : s.outcome operation = .error fault) :
    (s.occur o).tracked = s.tracked := by
  cases o with
  | answering state transition => cases met
  | furnish factory => cases met
  | event e =>
    have passed : s.milestone? e = some (.operate s operation) := met
    have silent : s.tells? e = none := by
      cases told : s.tells? e with
      | none => rfl
      | some vigil => cases (told_happen orderly told).2.1.symm.trans passed
    have unwatched : Milestone.vigil? (.operate s operation) = none := by
      rw [Milestone.vigil?]
      cases entered : s.entrance? operation with
      | none => rfl
      | some e =>
        have undertakes := undertakes_perform (s.opened operation) e
        rw [← outcome_entered entered, raised] at undertakes
        rw [Option.bind_some]
        generalize (s.opened operation).vigil? e = left at undertakes
        cases undertakes
        rfl
    have watches := (watches_happen orderly silent).1.tracked
    rw [passed, Option.bind_some, unwatched] at watches
    rw [occur, watches]
    exact List.append_nil _

/-- Where the task of a line stands: before it asks the machine for anything, or before the end of a
drain, or at its own end. -/
inductive Stage (s : Session) (text : String) (news : List Milestone) : List Frame → Supply → Prop where
  | line {values : List Value} (unasked : ∀ k ∈ news, k.isOperation = false) (rested : s.Rested) :
      Stage s text news [.line text] (.values values)
  | tend {supply : Supply} (patient : ∀ promise, supply = .promise promise → s.Patient promise) :
      Stage s text news [.drain, .announce] supply
  | announce {values : List Value} (rested : s.Rested) : Stage s text news [.announce] (.values values)
  | done {values : List Value} (rested : s.Rested) : Stage s text news [] (.values values)

/-- The way of the task of a line. -/
structure Attends (s : Session) (own : Nat) (text : String) (news : List Milestone) : Prop where
  alone : s.Alone own
  role : s.schedule.role? own = some .task
  once : (news.filter Milestone.isOperation).length ≤ 1
  asks : ∀ u operation, .operate u operation ∈ news → lineOperation? text = some operation
  stage : ∀ frames supply, s.Stands own frames supply → s.Stage text news frames supply
  ended : s.schedule.outcome? own ≠ none → s.Rested

theorem Stage.supplied (stage : s.Stage text news frames supply) {after : Supply} (supplied : s.Supplied supply after) :
    s.Stage text news frames after := by
  rcases supplied with rfl | ⟨id, values, rfl, settled, rfl⟩
  · exact stage
  · cases stage with
    | tend patient => exact .tend nofun

theorem asks_silent (silent : ∀ u operation, s.met? o ≠ some (.operate u operation)) :
    ∀ k ∈ (s.met? o).toList, k.isOperation = false := by
  intro k member
  have met := Option.mem_toList.mp member
  cases k with
  | operate u operation => exact absurd met (silent u operation)
  | enter u task target => rfl
  | place u task config whole values => rfl

theorem filter_silent (silent : ∀ u operation, s.met? o ≠ some (.operate u operation)) :
    (news ++ (s.met? o).toList).filter Milestone.isOperation = news.filter Milestone.isOperation := by
  have none : (s.met? o).toList.filter Milestone.isOperation = [] :=
    List.filter_eq_nil_iff.mpr fun k member => by simp [asks_silent silent k member]
  rw [List.filter_append, none, List.append_nil]

theorem Attends.idle (attends : s.Attends own text news) (orderly : s.Orderly s.running) (aside : o.isAside = true)
    (idle : ¬ s.Steps o own) : (s.occur o).Attends own text (news ++ (s.met? o).toList) := by
  have silent := attends.alone.silent aside idle
  obtain ⟨_, held, _⟩ := Option.map_eq_some_iff.mp attends.role
  have inside := Schedule.origin?_inside held
  have remains {frames : List Frame} {supply : Supply} (stands : s.Stands own frames supply) :
      (s.occur o).Stage text (news ++ (s.met? o).toList) frames supply := by
    cases attends.stage frames supply stands with
    | line unasked rested =>
      refine .line (fun k member => ?_) (rested.occur orderly silent)
      rcases List.mem_append.mp member with old | new
      · exact unasked k old
      · exact asks_silent silent k new
    | tend patient => exact .tend fun promise same => (patient promise same).occur orderly o
    | announce rested => exact .announce (rested.occur orderly silent)
    | done rested => exact .done (rested.occur orderly silent)
  constructor
  case alone => exact attends.alone.occur orderly aside
  case role => exact ((occur_keeps orderly o).2.2 own inside).trans attends.role
  case once =>
    rw [filter_silent silent]
    exact attends.once
  case asks =>
    intro u operation member
    rcases List.mem_append.mp member with old | new
    · exact attends.asks u operation old
    · exact absurd (Option.mem_toList.mp new) (silent u operation)
  case stage =>
    intro frames supply stands
    obtain ⟨before, stood, supplied⟩ := stands_occur orderly o inside idle stands
    refine (remains stood).supplied (supplied.imp_right ?_)
    rintro ⟨id, values, same, settled, given⟩
    exact ⟨id, values, same, outcome_kept orderly o settled, given⟩
  case ended =>
    intro settled
    obtain ⟨outcome, settled⟩ := Option.ne_none_iff_exists'.mp settled
    rcases settles_idle orderly attends.role idle settled with before | ⟨values, stands, rfl⟩ |
      ⟨frames, promise, fault, stands, failed, rfl⟩
    · exact (attends.ended (by simp [before])).occur orderly silent
    · cases attends.stage _ _ stands with
      | done rested => exact rested.occur orderly silent
    · cases attends.stage _ _ stands with
      | tend patient => exact absurd failed ((patient promise rfl).unfailing fault)

variable {frame : Frame} {rest : List Frame} {values : List Value}

/-- A line may ask the machine for something, and then its task waits for a drain. -/
theorem Attends.leads (attends : s.Attends own text news) (orderly : s.Orderly s.running)
    (turn : s.turn = some { task := own, frames := frame :: rest, values }) :
    s.Leads ((s.happen .step).Stage text (news ++ (s.met? (.event .step)).toList)) (fun _ => (s.happen .step).Rested)
      frame rest values := by
  have met : s.met? (.event .step) = s.passed? own frame values := met?_step turn
  cases attends.stage _ _ (.turn turn) with
  | line unasked rested =>
    have idle (none : lineOperation? text = none) : (s.happen .step).Rested := by
      refine rested.occur (o := .event .step) orderly fun u operation same => ?_
      rw [met, passed?, none] at same
      cases same
    have handles := s.handles text
    generalize moved : (s.handleLine text).2 = move at handles
    cases handles with
    | blank none _ => exact .at_once [] [.bool true] (by rw [takeStep, moved]; rfl) (.done (idle none))
    | leave none _ => exact .at_once [] [.bool false] (by rw [takeStep, moved]; rfl) (.done (idle none))
    | carried _ => exact .at_once [.drain, .announce] [] (by rw [takeStep, moved]; rfl) (.tend (by simp))
    | @broken operation fault asks raised _ =>
      refine .broken (by rw [takeStep, moved]) fun id tracked => ?_
      have passed : s.met? (.event .step) = some (.operate s operation) := by
        rw [met, passed?, asks]
        rfl
      have same : (s.happen .step).tracked = s.tracked := tracked_raised orderly passed raised
      rw [same] at tracked
      have settled := rested id tracked
      rwa [show s.happen .step = s.occur (.event .step) from rfl, (occur_keeps orderly (.event .step)).2.1 id settled]
  | tend _ =>
    exact .drain orderly turn (fun promise patient => .tend (by rintro _ ⟨⟩; exact patient)) fun rested => .announce rested
  | announce rested =>
    refine .at_once [] [.bool true] rfl (.done (rested.occur (o := .event .step) orderly fun u operation same => ?_))
    rw [met] at same
    cases same

theorem Attends.step (attends : s.Attends own text news) (orderly : s.Orderly s.running)
    (turn : s.turn = some { task := own, frames := frame :: rest, values }) :
    (s.occur (.event .step)).Attends own text (news ++ (s.met? (.event .step)).toList) := by
  have leads := attends.leads orderly turn
  obtain ⟨⟨inside, _⟩, _⟩ := (Stands.turn turn).alive orderly
  have alone := attends.alone.occur (o := .event .step) orderly rfl
  constructor
  case alone => exact alone
  case role => exact ((occur_keeps orderly (.event .step)).2.2 own inside).trans attends.role
  case once =>
    rw [met?_step turn, List.filter_append]
    cases attends.stage _ _ (.turn turn) with
    | line unasked _ =>
      have none : news.filter Milestone.isOperation = [] :=
        List.filter_eq_nil_iff.mpr fun k member => by simp [unasked k member]
      rw [none, List.nil_append]
      refine Nat.le_trans (List.length_filter_le _ _) ?_
      cases s.passed? own (.line text) values <;> simp
    | tend _ => simpa [passed?] using attends.once
    | announce _ => simpa [passed?] using attends.once
  case asks =>
    intro u operation member
    rcases List.mem_append.mp member with old | new
    · exact attends.asks u operation old
    · have met := (met?_step turn).symm.trans (Option.mem_toList.mp new)
      cases attends.stage _ _ (.turn turn) with
      | line _ _ =>
        obtain ⟨asked, asks, same⟩ := Option.map_eq_some_iff.mp met
        cases same
        exact asks
      | tend _ => cases met
      | announce _ => cases met
  case stage =>
    intro frames supply stands
    exact leads.stands orderly turn (fun _ _ _ stage supplied => stage.supplied supplied) stands
  case ended =>
    intro settled
    obtain ⟨outcome, settled⟩ := Option.ne_none_iff_exists'.mp settled
    exact leads.settles orderly turn settled

theorem Attends.occur (attends : s.Attends own text news) (orderly : s.Orderly s.running) (aside : o.isAside = true) :
    (s.occur o).Attends own text (news ++ (s.met? o).toList) := by
  by_cases steps : s.Steps o own
  · obtain ⟨rfl, frame, rest, values, turn⟩ := steps
    exact attends.step orderly turn
  · exact attends.idle orderly aside steps

theorem Attends.given (orderly : s.Orderly s.running) (quiet : s.coordinator.Quiet)
    (hushed : ∀ task frames supply, s.Stands task frames supply → Hushed frames) (rested : (s.spawn [.line text]).1.Rested) :
    (s.spawn [.line text]).1.Attends s.schedule.promises.size text [] := by
  have extended := (Grows.spawn s [.line text]).extends
  have later := orderly.grows (.spawn s [.line text])
  have held := s.schedule.origin?_spawn [.line text]
  have queued : .run s.schedule.promises.size ∈ (s.spawn [.line text]).1.schedule.queue :=
    List.mem_append_right _ (List.mem_singleton_self _)
  refine ⟨⟨quiet, ?_⟩, Schedule.role?_origin held, Nat.zero_le 1, (fun _ _ member => nomatch member), ?_, fun _ => rested⟩
  · intro task frames supply other stands
    by_cases inside : task < s.schedule.promises.size
    · exact hushed task frames supply ((extended.stands inside).mp stands)
    · have supplied := stands_fresh orderly (.spawn s _) (Nat.le_of_not_lt inside) stands
      exact absurd (s.held_spawn (Nat.le_of_not_lt inside) supplied.2).1 other
  · intro frames supply stands
    obtain ⟨rfl, rfl⟩ := (stands_queued later queued held).mp stands
    exact .line (fun _ member => nomatch member) rested

end Session

/-- A line of input, and what happens while it is handled. -/
structure Exchange where
  text : String
  meanwhile : List Occasion

namespace Chronicle

/-- What has happened since a chronicle in which everything had ended: all that is entered or handed over
is commissioned since then. -/
structure Since (a c : Chronicle) (news : List Milestone) : Prop where
  same : c.milestones = a.milestones ++ news
  commissions : c.Commissions
  kept : ∀ id, a.session.schedule.outcome? id ≠ none → c.session.schedule.outcome? id ≠ none
  size : a.session.schedule.promises.size ≤ c.session.schedule.promises.size
  later : ∀ k ∈ news, a.session.schedule.promises.size ≤ k.session.schedule.promises.size
  entered : ∀ k ∈ news, k.closing? ≠ none → ∃ f ∈ news.filterMap Milestone.follower?, k.task? = some f.task
  handed : ∀ h ∈ news.filterMap Milestone.handover?,
    ∃ q ∈ news.filterMap Milestone.consultation?, q.Accepts h.task ∧ q.config = h.config

/-- Whether nothing is going on, and services do not call the machine. -/
structure Idle (c : Chronicle) : Prop where
  orderly : c.session.Orderly c.session.running
  commissions : c.Commissions
  hands : c.Hands
  quiet : c.session.coordinator.Quiet
  hushed : ∀ task frames supply, c.session.Stands task frames supply → Hushed frames
  rested : c.session.Rested

def handle (c : Chronicle) (x : Exchange) : Chronicle :=
  (c.occur (.event (.command x.text))).course x.meanwhile

/-- Whether lines are handled one after the other. The next one is given when the task of the last one has
ended. -/
inductive Serial : Chronicle → List Exchange → Prop where
  | nil (c : Chronicle) : Serial c []
  | cons {c : Chronicle} {x : Exchange} {rest : List Exchange} (serving : ∀ o ∈ x.meanwhile, o.isServing = true)
      (ended : (c.handle x).session.schedule.outcome? c.session.schedule.promises.size ≠ none)
      (later : Serial (c.handle x) rest) : Serial c (x :: rest)

variable {a c : Chronicle} {news : List Milestone} {o : Occasion}

theorem Since.refl (commissions : a.Commissions) : a.Since a [] where
  same := (List.append_nil _).symm
  commissions := commissions
  kept _ settled := settled
  size := Nat.le_refl _
  later _ member := nomatch member
  entered _ member := nomatch member
  handed _ member := nomatch member

theorem Since.unsettled (since : a.Since c news) (orderly : c.session.Orderly c.session.running) {task : Nat} {x : Purpose}
    (intends : c.session.Intends task x) : a.session.schedule.outcome? task = none := by
  obtain ⟨frames, supply, stands, _⟩ := intends
  apply Classical.byContradiction
  intro settled
  exact since.kept task settled (stands.alive orderly).1.2

theorem Since.among (since : a.Since c news) {β : Type} {g : Milestone → Option β} {b : β} (member : b ∈ c.milestones.filterMap g) :
    b ∈ a.milestones.filterMap g ∨ b ∈ news.filterMap g := by
  rw [since.same, List.filterMap_append] at member
  exact List.mem_append.mp member

/-- What had been commissioned by then has ended, so whatever is still to be handed over has been
commissioned since. -/
theorem Since.recent (since : a.Since c news) (base : a.Commissions) (rested : a.session.Rested)
    (orderly : c.session.Orderly c.session.running) {task : Nat} {config : Value} (intends : c.session.Intends task (.situation config)) :
    ∃ q ∈ news.filterMap Milestone.consultation?, q.Accepts task ∧ q.config = config := by
  obtain ⟨q, asked, commissioned⟩ := since.commissions.situations task config intends
  rcases since.among asked with old | new
  · exact absurd (since.unsettled orderly intends) (base.settled rested ⟨q, old, commissioned⟩)
  · exact ⟨q, new, commissioned⟩

theorem Since.occur (since : a.Since c news) (base : a.Commissions) (rested : a.session.Rested)
    (orderly : c.session.Orderly c.session.running) (indirect : o.isIndirect = true) :
    a.Since (c.occur o) (news ++ (c.session.met? o).toList) := by
  have more {β : Type} {g : Milestone → Option β} {b : β} (member : b ∈ news.filterMap g) :
      b ∈ (news ++ (c.session.met? o).toList).filterMap g := by
    rw [List.filterMap_append]
    exact List.mem_append_left _ member
  constructor
  case same => rw [Chronicle.occur, since.same, List.append_assoc]
  case commissions => exact since.commissions.occur orderly indirect
  case kept =>
    intro id settled
    have before := since.kept id settled
    rwa [show (c.occur o).session = c.session.occur o from rfl, (Session.occur_keeps orderly o).2.1 id before]
  case size => exact Nat.le_trans since.size (Session.occur_keeps orderly o).1
  case later =>
    intro k member
    rcases List.mem_append.mp member with old | new
    · exact since.later k old
    · rw [(Session.meets_occur orderly (Option.mem_toList.mp new)).schedule]
      exact since.size
  case entered =>
    intro k member closes
    rcases List.mem_append.mp member with old | new
    · obtain ⟨f, left, own⟩ := since.entered k old closes
      exact ⟨f, more left, own⟩
    · cases k with
      | operate u operation => exact absurd rfl closes
      | place u task config whole values => exact absurd rfl closes
      | enter u task target =>
        obtain ⟨x, serving, intends⟩ := Session.met?_serving (Option.mem_toList.mp new) rfl
        cases serving.purpose
        obtain ⟨f, left, rfl⟩ := since.commissions.consults.intended task target intends
        rcases since.among left with old | new
        · have ended := (base.followed f old).elim (rested f.task) fun settled => settled
          exact absurd (since.unsettled orderly intends) ended
        · exact ⟨f, more new, rfl⟩
  case handed =>
    intro h member
    rw [List.filterMap_append] at member
    rcases List.mem_append.mp member with old | new
    · obtain ⟨q, asked, commissioned⟩ := since.handed h old
      exact ⟨q, more asked, commissioned⟩
    · obtain ⟨k, met, handed⟩ := List.mem_filterMap.mp new
      cases k with
      | operate u operation => cases handed
      | enter u task target => cases handed
      | place u task config whole values =>
        cases handed
        obtain ⟨x, serving, intends⟩ := Session.met?_serving (Option.mem_toList.mp met) rfl
        cases serving.purpose
        obtain ⟨q, asked, commissioned⟩ := since.recent base rested orderly intends
        exact ⟨q, more asked, commissioned⟩

/-- What is handled when a line is given, and what has come of it by then. -/
structure Spell (a c : Chronicle) (own : Nat) (text : String) (news : List Milestone) : Prop where
  orderly : c.session.Orderly c.session.running
  attends : c.session.Attends own text news
  since : a.Since c news
  hands : c.Hands

theorem Spell.occur {own : Nat} {text : String} (spell : a.Spell c own text news) (idle : a.Idle) (serving : o.isServing = true) :
    a.Spell (c.occur o) own text (news ++ (c.session.met? o).toList) := by
  obtain ⟨aside, indirect⟩ := Occasion.isServing_iff.mp serving
  exact ⟨spell.orderly.occur o, spell.attends.occur spell.orderly aside,
    spell.since.occur idle.commissions idle.rested spell.orderly indirect, spell.hands.occur spell.orderly o⟩

theorem Spell.course {own : Nat} {text : String} (spell : a.Spell c own text news) (idle : a.Idle) {occasions : List Occasion}
    (serving : ∀ o ∈ occasions, o.isServing = true) : ∃ more, a.Spell (c.course occasions) own text (news ++ more) := by
  induction occasions generalizing c news with
  | nil => exact ⟨[], by rw [List.append_nil]; exact spell⟩
  | cons o rest ih =>
    have first := spell.occur idle (serving o (List.mem_cons_self ..))
    obtain ⟨more, later⟩ := ih first fun other member => serving other (List.mem_cons_of_mem o member)
    exact ⟨_, by rw [← List.append_assoc]; exact later⟩

theorem Idle.given (idle : a.Idle) (text : String) :
    a.Spell (a.occur (.event (.command text))) a.session.schedule.promises.size text [] := by
  have unmet : a.session.met? (.event (.command text)) = none := rfl
  have silent (u : Session) (operation : Operation) : a.session.met? (.event (.command text)) ≠ some (.operate u operation) := by
    rw [unmet]
    nofun
  have rested : (a.session.spawn [.line text]).1.Rested := idle.rested.occur idle.orderly silent
  have since := (Since.refl idle.commissions).occur idle.commissions idle.rested idle.orderly (Occasion.isIndirect_command text)
  rw [unmet] at since
  exact ⟨idle.orderly.occur (.event (.command text)), .given idle.orderly idle.quiet idle.hushed rested, since, idle.hands.occur idle.orderly _⟩

theorem Spell.idle {own : Nat} {text : String} (spell : a.Spell c own text news)
    (ended : c.session.schedule.outcome? own ≠ none) : c.Idle where
  orderly := spell.orderly
  commissions := spell.since.commissions
  hands := spell.hands
  quiet := spell.attends.alone.quiet
  hushed task frames supply stands := by
    refine spell.attends.alone.others task frames supply ?_ stands
    rintro rfl
    exact ended (stands.alive spell.orderly).1.2
  rested := spell.attends.ended ended

theorem Idle.start {s : Session} (fresh : s.Fresh) (unmade : s.coordinator.created = none)
    (coordinated : s.behavior = .coordinated) (quiet : s.coordinator.Quiet) : ({ session := s } : Chronicle).Idle where
  orderly := fresh.orderly
  commissions := .start fresh coordinated
  hands := .start fresh unmade
  quiet := quiet
  hushed task frames supply stands := by
    have inside := (stands.alive fresh.orderly).1.1
    rw [fresh.schedule] at inside
    cases inside
  rested id tracked := by
    rw [fresh.tracked] at tracked
    cases tracked

theorem Serial.idle {xs : List Exchange} (serial : c.Serial xs) (idle : c.Idle) : (xs.foldl handle c).Idle := by
  induction serial with
  | nil => exact idle
  | cons serving ended later ih =>
    obtain ⟨news, spell⟩ := (idle.given _).course idle serving
    exact ih (spell.idle ended)

end Chronicle

end Interaction
