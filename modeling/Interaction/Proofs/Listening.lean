import Interaction.Proofs.Consulting
import Interaction.Proofs.Independence
import Interaction.Proofs.Input
import Interaction.Runner

/-! The handling of input. As long as services do not call the machine, what the machine is asked for
is what the lines say that are heard, one line after the other, up to the one that ends the input; and
then it is paused. -/

namespace Interaction

/-- A chronicle, and the lines that have been heard. -/
structure Hearing where
  chronicle : Chronicle
  lines : List (Option String) := []

namespace Hearing

def session (h : Hearing) : Session :=
  h.chronicle.session

def occur (h : Hearing) (o : Occasion) : Hearing where
  chronicle := h.chronicle.occur o
  lines := h.lines ++ (h.session.heard? o).toList

def course (h : Hearing) (occasions : List Occasion) : Hearing :=
  occasions.foldl occur h

/-- Whether the machine has been asked for what the lines say, all but the last ones. -/
def Handled (h : Hearing) (base : List Operation) (ahead : List (Option String)) : Prop :=
  ∃ front : List String, h.lines = front.map some ++ ahead ∧ (∀ text ∈ front, Session.leaves text = false) ∧
    h.chronicle.operations = base ++ front.filterMap Session.lineOperation?

/-- Whether the machine has been asked for what the lines say, up to one that ends the input, and then
has been paused. -/
def Over (h : Hearing) (base : List Operation) : Prop :=
  ∃ (front : List String) (last : Option String), h.lines = front.map some ++ [last] ∧
    (∀ text ∈ front, Session.leaves text = false) ∧ (∀ text, last = some text → Session.leaves text = true) ∧
      h.chronicle.operations = base ++ front.filterMap Session.lineOperation? ++ [.setRunning false]

/-- Where the task stands that handles the input, and what has been heard and handled by then. The
machine is asked for `base` before the first line. -/
inductive Stage (h : Hearing) (base : List Operation) : List Frame → Supply → Prop where
  | entry {values : List Value} (unheard : h.lines = []) (asks : h.chronicle.operations ++ [.setRunning true] = base) :
      Stage h base [.line Command.run.word, .ask] (.values values)
  | tend {last : Frame} {supply : Supply} (goes : last = .ask ∨ last = .onward) (handled : h.Handled base [])
      (patient : ∀ promise, supply = .promise promise → h.session.Patient promise) : Stage h base [.drain, .announce, last] supply
  | announce {last : Frame} {values : List Value} (goes : last = .ask ∨ last = .onward) (handled : h.Handled base []) :
      Stage h base [.announce, last] (.values values)
  | ask {values : List Value} (handled : h.Handled base []) : Stage h base [.ask] (.values values)
  | wait {promise : Nat} (handled : h.Handled base []) (asking : h.session.Asking promise) : Stage h base [.hear] (.promise promise)
  | answered {promise : Nat} {line : Option String} (handled : h.Handled base [line])
      (settled : h.session.schedule.outcome? promise = some (.ok (line.toList.map .text))) : Stage h base [.hear] (.promise promise)
  | hear {line : Option String} (handled : h.Handled base [line]) : Stage h base [.hear] (.values (line.toList.map .text))
  | line {text : String} {values : List Value} (handled : h.Handled base [some text]) :
      Stage h base [.line text, .onward] (.values values)
  | onward (handled : h.Handled base []) : Stage h base [.onward] (.values [.bool true])
  | leave {text : String} (ends : Session.leaves text = true) (handled : h.Handled base [some text]) :
      Stage h base [.onward] (.values [.bool false])
  | stop {line : Option String} {values : List Value} (ends : ∀ text, line = some text → Session.leaves text = true)
      (handled : h.Handled base [line]) : Stage h base [.stop] (.values values)
  | rest {supply : Supply} (complete : h.Over base) (patient : ∀ promise, supply = .promise promise → h.session.Patient promise) :
      Stage h base [.drain, .stopped] supply
  | stopped {values : List Value} (complete : h.Over base) (rested : h.session.Rested) : Stage h base [.stopped] (.values values)
  | done {values : List Value} (complete : h.Over base) (rested : h.session.Rested) : Stage h base [] (.values values)

/-- What the end of the handling of input means: that all is over, or that an operation of the machine
has raised something that is not expected. -/
inductive Ended (h : Hearing) (base : List Operation) : Outcome → Prop where
  | complete {values : List Value} (complete : h.Over base) (rested : h.session.Rested) : Ended h base (.ok values)
  | broken {u : Session} {operation : Operation} {fault : Fault} (asked : .operate u operation ∈ h.chronicle.milestones)
      (raised : u.outcome operation = .error fault) (unexpected : fault.isExpected = false) : Ended h base (.error fault)

/-- The way of the task that handles the input. -/
structure Runs (h : Hearing) (own : Nat) (base : List Operation) : Prop where
  alone : h.session.Alone own
  role : h.session.schedule.role? own = some .task
  stage : ∀ frames supply, h.session.Stands own frames supply → h.Stage base frames supply
  asked : ∀ promise, h.session.asked = some promise →
    h.session.Asking promise ∧ h.session.Stands own [.hear] (.promise promise)
  ended : ∀ outcome, h.session.schedule.outcome? own = some outcome → h.Ended base outcome

variable {h g : Hearing} {base : List Operation} {own : Nat} {o : Occasion} {frames : List Frame} {supply : Supply}

theorem Handled.same {ahead : List (Option String)} (handled : h.Handled base ahead) (lines : g.lines = h.lines)
    (operations : g.chronicle.operations = h.chronicle.operations) : g.Handled base ahead := by
  unfold Handled at *
  rwa [lines, operations]

theorem Over.same (complete : h.Over base) (lines : g.lines = h.lines) (operations : g.chronicle.operations = h.chronicle.operations) :
    g.Over base := by
  unfold Over at *
  rwa [lines, operations]

theorem operations_occur (h : Hearing) (o : Occasion) :
    (h.occur o).chronicle.operations = h.chronicle.operations ++ ((h.session.met? o).bind Milestone.operation?).toList :=
  h.chronicle.filterMap_occur o Milestone.operation?

theorem operations_silent (silent : ∀ u operation, h.session.met? o ≠ some (.operate u operation)) :
    (h.occur o).chronicle.operations = h.chronicle.operations := by
  rw [operations_occur]
  cases met : h.session.met? o with
  | none => simp
  | some k =>
    cases k with
    | operate u operation => exact absurd met (silent u operation)
    | enter u task target => simp [Milestone.operation?]
    | place u task config whole values => simp [Milestone.operation?]

theorem heard?_unasked {s : Session} (unasked : s.asked = none) (o : Occasion) : s.heard? o = none := by
  cases o with
  | event e => cases e <;> simp [Session.heard?, unasked]
  | answering state transition => rfl
  | furnish factory => rfl

theorem lines_unheard (unheard : h.session.heard? o = none) : (h.occur o).lines = h.lines := by
  simp [occur, unheard]

theorem Stage.supplied (stage : h.Stage base frames supply) {after : Supply} (supplied : h.session.Supplied supply after) :
    h.Stage base frames after := by
  rcases supplied with rfl | ⟨id, values, rfl, settled, rfl⟩
  · exact stage
  · cases stage with
    | tend goes handled patient => exact .tend goes handled nofun
    | wait handled asking => cases asking.open_.symm.trans settled
    | answered handled ended =>
      cases ended.symm.trans settled
      exact .hear handled
    | rest complete patient => exact .rest complete nofun

/-- Without a step of its own the task stays where it is, and may be given a line. -/
theorem Runs.remain (runs : h.Runs own base) (orderly : h.session.Orderly h.session.running) (aside : o.isAside = true)
    (idle : ¬ h.session.Steps o own) (stands : h.session.Stands own frames supply) : (h.occur o).Stage base frames supply := by
  have stage := runs.stage frames supply stands
  have silent := runs.alone.silent aside idle
  have operations := operations_silent silent
  have later {promise : Nat} (patient : h.session.Patient promise) : (h.occur o).session.Patient promise :=
    patient.occur orderly o
  by_cases waits : ∃ promise, h.session.asked = some promise
  · obtain ⟨promise, asked⟩ := waits
    obtain ⟨asking, hears⟩ := runs.asked promise asked
    obtain ⟨rfl, rfl⟩ := hears.unique orderly stands
    have handled : h.Handled base [] := by
      cases stage with
      | wait handled _ => exact handled
      | answered _ settled => cases asking.open_.symm.trans settled
    rcases asking.occur runs.alone orderly aside idle with ⟨unheard, still⟩ | ⟨line, heard, _, settled⟩
    · exact .wait (handled.same (lines_unheard unheard) operations) still
    · refine .answered ?_ settled
      obtain ⟨front, lines, stay, asks⟩ := handled
      refine ⟨front, ?_, stay, operations.trans asks⟩
      rw [occur, lines, heard]
      simp
  · have unasked : h.session.asked = none := by
      rw [← Option.not_isSome_iff_eq_none, Option.isSome_iff_exists]
      exact waits
    have lines := lines_unheard (heard?_unasked unasked o)
    cases stage with
    | entry unheard asks => exact .entry (lines.trans unheard) (by rw [operations, asks])
    | tend goes handled patient => exact .tend goes (handled.same lines operations) fun p same => later (patient p same)
    | announce goes handled => exact .announce goes (handled.same lines operations)
    | ask handled => exact .ask (handled.same lines operations)
    | wait _ asking => cases unasked.symm.trans asking.asked
    | answered handled settled =>
      exact .answered (handled.same lines operations) (Session.outcome_kept orderly o settled)
    | hear handled => exact .hear (handled.same lines operations)
    | line handled => exact .line (handled.same lines operations)
    | onward handled => exact .onward (handled.same lines operations)
    | leave ends handled => exact .leave ends (handled.same lines operations)
    | stop ends handled => exact .stop ends (handled.same lines operations)
    | rest complete patient => exact .rest (complete.same lines operations) fun p same => later (patient p same)
    | stopped complete rested => exact .stopped (complete.same lines operations) (rested.occur orderly silent)
    | done complete rested => exact .done (complete.same lines operations) (rested.occur orderly silent)

theorem Ended.remain {outcome : Outcome} (ended : h.Ended base outcome) (orderly : h.session.Orderly h.session.running)
    (silent : ∀ u operation, h.session.met? o ≠ some (.operate u operation)) (unheard : h.session.heard? o = none) :
    (h.occur o).Ended base outcome := by
  cases ended with
  | complete complete rested =>
    exact .complete (complete.same (lines_unheard unheard) (operations_silent silent)) (rested.occur orderly silent)
  | broken asked raised unexpected => exact .broken (List.mem_append_left _ asked) raised unexpected

/-- Whoever waits for a line goes on to wait as long as a line is asked for. -/
theorem Runs.waiting (runs : h.Runs own base) (orderly : h.session.Orderly h.session.running) (aside : o.isAside = true)
    (idle : ¬ h.session.Steps o own) {promise : Nat} (asked : (h.occur o).session.asked = some promise) :
    (h.occur o).session.Asking promise ∧ (h.occur o).session.Stands own [.hear] (.promise promise) := by
  obtain ⟨asking, hears⟩ := runs.asked promise (runs.alone.asked orderly aside idle asked)
  rcases asking.occur runs.alone orderly aside idle with ⟨_, still⟩ | ⟨_, _, none, _⟩
  · refine ⟨still, ?_⟩
    rcases o.event_or_exchange with ⟨e, rfl⟩ | other
    · rcases Session.stands_happen_on orderly e hears with ⟨after, stands, same | ⟨_, _, same, settled, _⟩⟩ |
        ⟨_, _, same, failed, _⟩ | ⟨_, own⟩
      · exact same ▸ stands
      · cases same
        cases asking.open_.symm.trans settled
      · cases same
        cases asking.open_.symm.trans failed
      · obtain ⟨⟨_, frames, values⟩, turn, rfl⟩ := Option.map_eq_some_iff.mp own
        cases (hears.of_turn orderly turn).2
    · exact (Session.stands_other other).mpr hears
  · cases none.symm.trans asked

theorem Runs.settled (runs : h.Runs own base) (orderly : h.session.Orderly h.session.running) (aside : o.isAside = true)
    (idle : ¬ h.session.Steps o own) {outcome : Outcome} (settled : (h.occur o).session.schedule.outcome? own = some outcome) :
    (h.occur o).Ended base outcome := by
  rcases Session.settles_idle orderly runs.role idle settled with before | ⟨values, stands, rfl⟩ |
    ⟨frames, promise, fault, stands, failed, rfl⟩
  · refine (runs.ended outcome before).remain orderly (runs.alone.silent aside idle) (heard?_unasked ?_ o)
    rw [← Option.not_isSome_iff_eq_none, Option.isSome_iff_exists]
    rintro ⟨promise, asked⟩
    cases (((runs.asked promise asked).2.alive orderly).1.2).symm.trans before
  · cases runs.remain orderly aside idle stands with
    | done complete rested => exact .complete complete rested
  · cases runs.stage _ _ stands with
    | tend _ _ patient => exact absurd failed ((patient promise rfl).unfailing fault)
    | wait _ asking => cases asking.open_.symm.trans failed
    | answered _ ended => cases ended.symm.trans failed
    | rest _ patient => exact absurd failed ((patient promise rfl).unfailing fault)

theorem Runs.idle (runs : h.Runs own base) (orderly : h.session.Orderly h.session.running) (aside : o.isAside = true)
    (idle : ¬ h.session.Steps o own) : (h.occur o).Runs own base := by
  have silent := runs.alone.silent aside idle
  have later := orderly.occur o
  obtain ⟨_, held, _⟩ := Option.map_eq_some_iff.mp runs.role
  have inside := Schedule.origin?_inside held
  constructor
  case alone => exact runs.alone.occur orderly aside
  case role => exact ((Session.occur_keeps orderly o).2.2 own inside).trans runs.role
  case stage =>
    intro frames supply stands
    obtain ⟨before, stood, supplied⟩ := Session.stands_occur orderly o inside idle stands
    refine (runs.remain orderly aside idle stood).supplied (supplied.imp_right ?_)
    rintro ⟨id, values, same, settled, given⟩
    exact ⟨id, values, same, Session.outcome_kept orderly o settled, given⟩
  case asked => exact fun promise asked => runs.waiting orderly aside idle asked
  case ended => exact fun outcome settled => runs.settled orderly aside idle settled

variable {frame : Frame} {rest : List Frame} {values : List Value}

/-- What a step of the task leads to. -/
def Leads (h : Hearing) (base : List Operation) (frame : Frame) (rest : List Frame) (values : List Value) : Prop :=
  h.session.Leads ((h.occur (.event .step)).Stage base) ((h.occur (.event .step)).Ended base) frame rest values

theorem operations_step (turn : h.session.turn = some { task := own, frames := frame :: rest, values }) :
    (h.occur (.event .step)).chronicle.operations =
      h.chronicle.operations ++ ((h.session.passed? own frame values).bind Milestone.operation?).toList := by
  rw [operations_occur, Session.met?_step turn]

theorem operations_line {text : String} (turn : h.session.turn = some { task := own, frames := .line text :: rest, values }) :
    (h.occur (.event .step)).chronicle.operations = h.chronicle.operations ++ (Session.lineOperation? text).toList := by
  rw [operations_step turn, Session.passed?]
  cases Session.lineOperation? text <;> rfl

theorem lines_step (h : Hearing) : (h.occur (.event .step)).lines = h.lines :=
  lines_unheard rfl

/-- An operation that raises something that is not expected ends the handling of input. -/
theorem Leads.raised {text : String} (turn : h.session.turn = some { task := own, frames := .line text :: rest, values })
    {operation : Operation} {fault : Fault} (asks : Session.lineOperation? text = some operation)
    (raised : h.session.outcome operation = .error fault) (unexpected : fault.isExpected = false)
    (moved : (h.session.takeStep (.line text) values).2 = .fail fault) : h.Leads base (.line text) rest values := by
  refine .broken moved (.broken (List.mem_append_right _ ?_) raised unexpected)
  rw [show h.chronicle.session = h.session from rfl, Session.met?_step turn, Session.passed?, asks]
  exact List.mem_singleton_self _

theorem lineOperation?_run : Session.lineOperation? Command.run.word = some (.setRunning true) := rfl

theorem Leads.entry (turn : h.session.turn = some { task := own, frames := [.line Command.run.word, .ask], values })
    (unheard : h.lines = []) (asks : h.chronicle.operations ++ [.setRunning true] = base) :
    h.Leads base (.line Command.run.word) [.ask] values := by
  have handles := h.session.handles Command.run.word
  generalize moved : (h.session.handleLine Command.run.word).2 = move at handles
  cases handles with
  | blank idle _ => cases lineOperation?_run.symm.trans idle
  | leave idle _ => cases lineOperation?_run.symm.trans idle
  | carried _ =>
    refine .at_once [.drain, .announce] [] (by rw [Session.takeStep, moved]; rfl) ?_
    refine .tend (Or.inl rfl) ⟨[], (lines_step h).trans unheard, List.forall_mem_nil _, ?_⟩ (by simp)
    rw [operations_line turn, lineOperation?_run, ← asks]
    simp
  | broken asks raised unexpected => exact .raised turn asks raised unexpected moved

theorem Leads.line {text : String} (turn : h.session.turn = some { task := own, frames := [.line text, .onward], values })
    (handled : h.Handled base [some text]) : h.Leads base (.line text) [.onward] values := by
  obtain ⟨front, lines, stay, asked⟩ := handled
  have carries (stays : Session.leaves text = false) : (h.occur (.event .step)).Handled base [] := by
    refine ⟨front ++ [text], ?_, ?_, ?_⟩
    · rw [lines_step, lines]
      simp
    · intro other member
      rcases List.mem_append.mp member with old | new
      · exact stay other old
      · exact List.mem_singleton.mp new ▸ stays
    · rw [operations_line turn, asked, List.filterMap_append]
      cases asks : Session.lineOperation? text <;> simp [asks]
  have handles := h.session.handles text
  generalize moved : (h.session.handleLine text).2 = move at handles
  cases handles with
  | blank idle stays =>
    exact .at_once [] [.bool true] (by rw [Session.takeStep, moved]; rfl) (.onward (carries stays))
  | leave idle ends =>
    refine .at_once [] [.bool false] (by rw [Session.takeStep, moved]; rfl) ?_
    refine .leave ends ⟨front, (lines_step h).trans lines, stay, ?_⟩
    rw [operations_line turn, idle, asked]
    simp
  | carried stays =>
    exact .at_once [.drain, .announce] [] (by rw [Session.takeStep, moved]; rfl)
      (.tend (Or.inr rfl) (carries stays) (by simp))
  | broken asks raised unexpected => exact .raised turn asks raised unexpected moved

theorem setRunning_off (s : Session) : (s.setRunning false).2 = .ok () := by
  unfold Session.setRunning
  cases s.machine <;> rfl

theorem Leads.stop (turn : h.session.turn = some { task := own, frames := [.stop], values }) {last : Option String}
    (ends : ∀ text, last = some text → Session.leaves text = true) (handled : h.Handled base [last]) :
    h.Leads base .stop [] values := by
  obtain ⟨front, lines, stay, asked⟩ := handled
  have moved : (h.session.takeStep .stop values).2 = .go [.drain, .stopped] [] := by
    have paused := setRunning_off h.session
    rw [Session.takeStep]
    split <;> simp_all
  refine .at_once [.drain, .stopped] [] (by rw [moved]; rfl) (.rest ⟨front, last, ?_⟩ (by simp))
  refine ⟨(lines_step h).trans lines, stay, ends, ?_⟩
  rw [operations_step turn, asked]
  rfl

theorem Runs.leads (runs : h.Runs own base) (orderly : h.session.Orderly h.session.running)
    (turn : h.session.turn = some { task := own, frames := frame :: rest, values }) : h.Leads base frame rest values := by
  have stage := runs.stage _ _ (.turn turn)
  have operations := operations_step turn
  have lines := lines_step h
  cases stage with
  | entry unheard asks => exact .entry turn unheard asks
  | tend goes handled _ =>
    have kept := handled.same lines (operations.trans (List.append_nil _))
    exact .drain orderly turn (fun promise patient => .tend goes kept (by rintro _ ⟨⟩; exact patient)) fun _ => .announce goes kept
  | announce goes handled =>
    have kept := handled.same lines (operations.trans (List.append_nil _))
    refine .at_once [] [.bool true] rfl ?_
    rcases goes with rfl | rfl
    · exact .ask kept
    · exact .onward kept
  | ask handled =>
    obtain ⟨moved, open_, asking, _⟩ := Session.step_ask orderly turn
    refine .on [.hear] (.promise h.session.schedule.promises.size) (by rw [moved]; rfl) ?_ ?_
    · rintro _ ⟨⟩
      exact open_
    · exact .wait (handled.same lines (operations.trans (List.append_nil _))) asking
  | @hear line handled =>
    have kept := handled.same lines (operations.trans (List.append_nil _))
    cases line with
    | none => exact .at_once [.stop] [] rfl (.stop (by intro text same; cases same) kept)
    | some text => exact .at_once [.line text, .onward] [] rfl (.line kept)
  | line handled => exact .line turn handled
  | onward handled =>
    exact .at_once [.ask] [] rfl
      (.ask (handled.same lines (operations.trans (List.append_nil _))))
  | @leave text ends handled =>
    have last (other : String) (same : some text = some other) : Session.leaves other = true := Option.some.inj same ▸ ends
    exact .at_once [.stop] [] rfl (.stop last (handled.same lines (operations.trans (List.append_nil _))))
  | stop ends handled => exact .stop turn ends handled
  | rest complete _ =>
    have kept := complete.same lines (operations.trans (List.append_nil _))
    exact .drain orderly turn (fun promise patient => .rest kept (by rintro _ ⟨⟩; exact patient)) fun rested => .stopped kept rested
  | stopped complete rested =>
    have silent (u : Session) (operation : Operation) : h.session.met? (.event .step) ≠ some (.operate u operation) := by
      rw [Session.met?_step turn]
      nofun
    exact .at_once [] [] rfl
      (.done (complete.same lines (operations.trans (List.append_nil _))) (rested.occur orderly silent))

theorem Runs.step (runs : h.Runs own base) (orderly : h.session.Orderly h.session.running)
    (turn : h.session.turn = some { task := own, frames := frame :: rest, values }) : (h.occur (.event .step)).Runs own base := by
  have leads := runs.leads orderly turn
  obtain ⟨⟨inside, _⟩, _⟩ := (Session.Stands.turn turn).alive orderly
  have alone := runs.alone.occur (o := .event .step) orderly rfl
  constructor
  case alone => exact alone
  case role => exact ((Session.occur_keeps orderly (.event .step)).2.2 own inside).trans runs.role
  case stage =>
    intro frames supply stands
    exact Session.Leads.stands leads orderly turn (fun _ _ _ stage supplied => stage.supplied supplied) stands
  case asked =>
    intro promise asked
    by_cases asks : frame = .ask
    · subst asks
      obtain ⟨_, _, asking, stands⟩ := Session.step_ask orderly turn
      cases asking.asked.symm.trans asked
      cases runs.stage _ _ (.turn turn)
      exact ⟨asking, stands⟩
    · have before : h.session.asked = some promise := by
        refine (Session.kept_step orderly fun other others task given same => ?_).1.symm.trans asked
        cases turn.symm.trans same
        exact asks
      cases ((runs.asked promise before).2.of_turn orderly turn).2
  case ended => exact fun outcome settled => Session.Leads.settles leads orderly turn settled

theorem Runs.occur (runs : h.Runs own base) (orderly : h.session.Orderly h.session.running) (aside : o.isAside = true) :
    (h.occur o).Runs own base := by
  by_cases steps : h.session.Steps o own
  · obtain ⟨rfl, frame, rest, values, turn⟩ := steps
    exact runs.step orderly turn
  · exact runs.idle orderly aside steps

theorem Runs.course (runs : h.Runs own base) (orderly : h.session.Orderly h.session.running) {occasions : List Occasion}
    (aside : ∀ o ∈ occasions, o.isAside = true) : (h.course occasions).Runs own base := by
  induction occasions generalizing h with
  | nil => exact runs
  | cons o rest ih =>
    have first := runs.occur orderly (aside o (List.mem_cons_self ..))
    exact ih first (orderly.occur o) fun other member => aside other (List.mem_cons_of_mem o member)

end Hearing

end Interaction
