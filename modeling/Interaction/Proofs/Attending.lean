import Interaction.Proofs.Listening
import Interaction.Runner

/-! The runner from its start to its end. Whatever the behaviour does, the machine is what it would be
without any if it were asked for what the lines say, and for nothing else. -/

namespace Interaction

/-- A machine after a milestone. What is asked of it is carried out with the documents as they are then. -/
def Machine.advance (m : Machine) : Milestone → Machine
  | .operate u operation => (m.operate u.store operation).1
  | _ => m

namespace Chronicle

variable {c : Chronicle} {m : Machine}

theorem machine_course (orderly : c.session.Orderly c.session.running)
    (machine : c.session.machine = some (c.milestones.foldl Machine.advance m)) (occasions : List Occasion) :
    (c.course occasions).session.machine = some ((c.course occasions).milestones.foldl Machine.advance m) := by
  refine (along orderly (P := fun c => c.session.machine = some (c.milestones.foldl Machine.advance m)) machine ?_ occasions).2
  intro c o orderly machine
  have after := Session.machine_occur orderly o
  rw [occur, after]
  cases met : c.session.met? o with
  | none => simpa using machine
  | some k =>
    have before : k.session.machine = c.session.machine := congrArg Outline.machine (Session.meets_occur orderly met).calm.outline
    cases k with
    | operate u operation =>
      have here : u.machine = some (c.milestones.foldl Machine.advance m) := before.trans machine
      simp [here, Machine.advance]
    | enter u task target => simpa [Machine.advance] using machine
    | place u task config whole values => simpa [Machine.advance] using machine

end Chronicle

namespace Session

variable {s : Session}

theorem load_eq (s : Session) (model : Value) : ∃ machine trace, (s.load model).1 = { s with machine, trace } := by
  unfold load
  cases held : s.machine with
  | none => exact ⟨s.machine, s.trace, rfl⟩
  | some m => exact ⟨_, _, logAll_eq { s with machine := some (m.load s.store model).1 } (m.load s.store model).2.1⟩

theorem Fresh.begun (fresh : s.Fresh) (frames : List Frame) {own : Nat} {steps : List Frame} {supply : Supply}
    (stands : (s.begin frames).1.Stands own steps supply) : own = 0 ∧ steps = frames ∧ supply = .values [] := by
  have schedule : (s.begin frames).1.schedule = (({} : Schedule Frame).add { origin := .task [] }).1 := by
    rw [← fresh.schedule]
    rfl
  have size : s.schedule.promises.size = 0 := by rw [fresh.schedule]; rfl
  cases stands with
  | turn turn =>
    cases turn
    exact ⟨size, rfl, rfl⟩
  | queued queued _ =>
    rw [schedule] at queued
    cases queued
  | waiting noticed _ =>
    have none : (({} : Schedule Frame).add { origin := .task [] }).1.notices = [] := rfl
    rw [schedule, none] at noticed
    cases noticed

end Session

namespace Hearing

variable {h : Hearing}

theorem session_course (h : Hearing) (occasions : List Occasion) :
    (h.course occasions).session = occasions.foldl Session.occur h.chronicle.session := by
  induction occasions generalizing h with
  | nil => rfl
  | cons o rest ih => exact ih (h.occur o)

theorem chronicle_course (h : Hearing) (occasions : List Occasion) :
    (h.course occasions).chronicle = h.chronicle.course occasions := by
  induction occasions generalizing h with
  | nil => rfl
  | cons o rest ih => exact ih (h.occur o)

/-- What the machine is asked for before the first line. -/
def opening (model : Value) (autostart : Bool) : List Operation :=
  .load model :: if autostart then [.setRunning true] else []

end Hearing

namespace Runner

/-- What a runner finds when it starts: the session with the model document in it, and whether the
machine is run at once. -/
structure Opens (r : Runner) (s : Session) (model : Value) (autostart : Bool) : Prop where
  document : ∃ folder path store records, r.settings.ensureDirectories r.session.store r.folder = .ok folder ∧
    r.settings.runner r.session.store "model_path" = .ok path ∧
      readModel folder r.session.store path = .ok (store, model, records) ∧ s = { r.session with store }.logAll records
  accepted : (s.load model).2 = .ok true
  setting : ∃ setting, r.settings.runner s.store "autostart" = .ok setting ∧ autostart = s.store.truthy setting

theorem loadModel_read {r ready : Runner} (loaded : r.loadModel .null = (ready, .ok true)) :
    ∃ path store model records, r.settings.runner r.session.store "model_path" = .ok path ∧
      readModel r.folder r.session.store path = .ok (store, model, records) ∧
        ready = { r with session := ((({ r.session with store } : Session).logAll records).load model).1 } ∧
          ((({ r.session with store } : Session).logAll records).load model).2 = .ok true := by
  unfold loadModel modelPath at loaded
  split at loaded
  · cases loaded
  next path named =>
  split at loaded
  · cases loaded
  next store model records found =>
  split at loaded
  · cases loaded
  obtain ⟨same, accepted⟩ := Prod.mk.inj loaded
  exact ⟨path, store, model, records, by simpa [Store.truthy, Scalar.truthy] using named, found, same.symm, accepted⟩

theorem start_opens {r begun : Runner} {id : Nat} (started : r.start = (begun, .ok (some id))) :
    ∃ s model autostart, r.Opens s model autostart ∧ (s.load model).1.begin (inputFrames autostart) = (begun.session, id) := by
  unfold start at started
  split at started
  · cases started
  next folder directories =>
  split at started
  · cases started
  · cases started
  next ready loaded =>
  split at started
  · cases started
  next setting configured =>
  obtain ⟨path, store, model, records, named, found, rfl, accepted⟩ := loadModel_read loaded
  generalize opened : ({ r.session with store } : Session).logAll records = s at configured started accepted
  obtain ⟨machine, trace, after⟩ := s.load_eq model
  have kept : (s.load model).1.store = s.store := by rw [after]
  obtain ⟨rfl, own⟩ := Prod.mk.inj started
  refine ⟨s, model, (s.load model).1.store.truthy setting, ⟨?_, accepted, setting, ?_, ?_⟩, ?_⟩
  · exact ⟨folder, path, store, records, directories, named, found, opened.symm⟩
  · rw [← kept]
    exact configured
  · rw [kept]
  · exact Prod.ext rfl (Option.some.inj (Except.ok.inj own))

theorem Opens.same {r : Runner} {s : Session} {model : Value} {autostart : Bool} (opens : r.Opens s model autostart) :
    ∃ store trace, s = { r.session with store, trace } := by
  obtain ⟨_, _, store, records, _, _, _, rfl⟩ := opens.document
  exact ⟨store, _, Session.logAll_eq { r.session with store } records⟩

theorem Opens.fresh {r : Runner} {s : Session} {model : Value} {autostart : Bool} (opens : r.Opens s model autostart)
    (fresh : r.session.Fresh) : s.Fresh := by
  obtain ⟨store, trace, rfl⟩ := opens.same
  exact ⟨fresh.schedule, fresh.turn, fresh.tracked, fresh.deferred, fresh.asked⟩

/-- From the start on the task that handles the input is the only one that asks the machine for anything. -/
theorem Opens.runs {r : Runner} {s : Session} {model : Value} {autostart : Bool} (opens : r.Opens s model autostart)
    (fresh : r.session.Fresh) (quiet : r.session.coordinator.Quiet) {begun : Session} {id : Nat}
    (starts : (s.load model).1.begin (inputFrames autostart) = (begun, id)) :
    let c := ({ session := s } : Chronicle).course [.event (.load model), .event (.start autostart)]
    c.session = begun ∧ c.session.Orderly c.session.running ∧
      ({ chronicle := c } : Hearing).Runs id (Hearing.opening model autostart) := by
  have fresh := opens.fresh fresh
  have quiet : s.coordinator.Quiet := by
    obtain ⟨store, trace, rfl⟩ := opens.same
    exact quiet
  obtain ⟨machine, trace, loaded⟩ := s.load_eq model
  have ready : (s.load model).1.Fresh := by
    rw [loaded]
    exact ⟨fresh.schedule, fresh.turn, fresh.tracked, fresh.deferred, fresh.asked⟩
  intro c
  have session : c.session = begun := by
    have begins : c.session = if (s.load model).1.turn.isNone then ((s.load model).1.begin (inputFrames autostart)).1
      else (s.load model).1 := rfl
    rw [begins, ready.turn, starts]
    rfl
  have size : (s.load model).1.schedule.promises.size = 0 := by
    rw [ready.schedule]
    rfl
  have own : id = 0 := (congrArg Prod.snd starts).symm.trans size
  have begun_eq : begun = ((s.load model).1.begin (inputFrames autostart)).1 := by rw [starts]
  have schedule : begun.schedule = (({} : Schedule Frame).add { origin := .task [] }).1 := by
    rw [begun_eq, ← ready.schedule]
    rfl
  have asks : c.operations = [.load model] := rfl
  refine ⟨session, Chronicle.orderly_course (c := { session := s }) fresh.orderly _, ?_⟩
  have stands {task : Nat} {frames : List Frame} {supply : Supply} (stands : c.session.Stands task frames supply) :
      task = 0 ∧ frames = inputFrames autostart ∧ supply = .values [] := by
    rw [session, begun_eq] at stands
    exact ready.begun _ stands
  refine ⟨⟨?_, fun task frames supply other stood => absurd ((stands stood).1.trans own.symm) other⟩, ?_, ?_, ?_, ?_⟩
  · rw [show ({ chronicle := c } : Hearing).session = begun from session, begun_eq]
    exact Session.quiet_congr (by rw [Session.begin, loaded]; rfl) quiet
  · rw [show ({ chronicle := c } : Hearing).session = begun from session, schedule, own]
    rfl
  · intro frames supply stood
    obtain ⟨_, rfl, rfl⟩ := stands stood
    cases autostart with
    | true => exact .entry rfl (by rw [asks]; rfl)
    | false => exact .ask ⟨[], rfl, nofun, by rw [asks]; rfl⟩
  · intro promise asked
    have unasked : begun.asked = none := by
      rw [begun_eq, Session.begin, loaded]
      exact fresh.asked
    rw [show ({ chronicle := c } : Hearing).session = begun from session, unasked] at asked
    cases asked
  · intro outcome settled
    rw [show ({ chronicle := c } : Hearing).session = begun from session, schedule, own] at settled
    cases settled

/-- Services that do not call the machine leave it to the lines of input. Whatever the behaviour does,
and whenever: when the runner returns, the machine has been asked to run if that is wanted at once, then
for what each line says that was heard, up to the one that ends the input, and at last to pause; it is
what that makes of a machine without behaviour; and all behaviour that is kept track of has ended. The
runner fails only if an operation of the machine raises something that it does not expect. -/
theorem lines_carried_out {r begun : Runner} (fresh : r.session.Fresh) {limit : Option Nat}
    (machine : r.session.machine = some { limit }) (quiet : r.session.coordinator.Quiet) {id : Nat}
    (started : r.start = (begun, .ok (some id))) :
    ∃ s model autostart, r.Opens s model autostart ∧
      let c := ({ session := s } : Chronicle).course [.event (.load model), .event (.start autostart)]
      begun.session = c.session ∧ ∀ occasions, (∀ o ∈ occasions, o.isAside = true) →
        let h := ({ chronicle := c } : Hearing).course occasions
        (∀ outcome, h.session.schedule.outcome? id = some outcome → h.Ended (Hearing.opening model autostart) outcome) ∧
        h.session.machine = some (h.chronicle.milestones.foldl Machine.advance { limit }) ∧
        ∀ d, d.Keyed → Chronicle.Reads d h.chronicle.milestones →
          h.session.machine = some (Machine.course { limit } d h.chronicle.operations) := by
  obtain ⟨s, model, autostart, opens, starts⟩ := start_opens started
  obtain ⟨session, later, runs⟩ := opens.runs fresh quiet starts
  have held : s.machine = some { limit } := by
    obtain ⟨store, trace, rfl⟩ := opens.same
    exact machine
  have orderly : ({ session := s } : Chronicle).session.Orderly s.running := (opens.fresh fresh).orderly
  refine ⟨s, model, autostart, opens, session.symm, fun occasions aside => ?_⟩
  intro h
  have whole : h.chronicle = ({ session := s } : Chronicle).course ([.event (.load model), .event (.start autostart)] ++ occasions) :=
    (Hearing.chronicle_course _ occasions).trans (Chronicle.course_append ..).symm
  have machine := Chronicle.machine_course orderly held ([.event (.load model), .event (.start autostart)] ++ occasions)
  refine ⟨(runs.course later aside).ended, ?_, fun d keyed reads => ?_⟩
  · rw [← whole] at machine
    exact machine
  · rw [whole] at reads
    have takes := ((Chronicle.Takes.start held).course orderly keyed _ reads).machine
    rw [← whole] at takes
    exact takes

theorem start_accepted {r : Runner} {answer : Option Nat} (accepted : r.start.2.toOption = some answer) :
    r.start = (r.start.1, .ok answer) := by
  generalize r.start = result at *
  obtain ⟨begun, fault | given⟩ := result
  · cases accepted
  · cases accepted
    rfl

theorem ended_over {h : Hearing} {id : Nat} {base : List Operation}
    (ended : ∀ outcome, h.session.schedule.outcome? id = some outcome → h.Ended base outcome)
    (ok : (h.session.schedule.outcome? id).any Except.isOk = true) : h.Over base ∧ h.session.Rested := by
  cases settled : h.session.schedule.outcome? id with
  | none =>
    rw [settled] at ok
    cases ok
  | some outcome =>
    rw [settled] at ok
    cases ended outcome settled with
    | complete complete rested => exact ⟨complete, rested⟩
    | broken => cases ok

/-- A runner that finds a model of two states in its file. -/
private def attending : Runner where
  session := { store := (Settings.create {}).1, behavior := .coordinated, machine := some {} }
  settings := (Settings.create {}).2
  folder := { items := [(["models"], .directory), (["models", "three_states.yaml"], .file bytes)] }
where
  bytes : List UInt8 :=
    "initial: A\nstates:\n- name: A\n  events:\n  - on: go\n    goto: B\n- name: B".toList.map fun c => c.toNat.toUInt8

/-- Two lines of input. -/
private def typing : List Occasion :=
  List.replicate 8 (.event .step) ++ .event (.hear (some "go")) :: List.replicate 12 (.event .step) ++
    .event (.hear (some " QUIT ")) :: List.replicate 12 (.event .step)

theorem attending_carried_out : attending.session.Fresh ∧ attending.session.machine = some { limit := some 100 } ∧
    attending.session.coordinator.Quiet ∧ ∃ begun, attending.start = (begun, .ok (some 0)) ∧
      ∃ (h : Hearing) (model : Value) (autostart : Bool), h.session = typing.foldl Session.occur begun.session ∧
        h.Over (Hearing.opening model autostart) ∧ h.session.Rested := by
  have fresh : attending.session.Fresh := ⟨rfl, rfl, rfl, rfl, rfl⟩
  have quiet : attending.session.coordinator.Quiet := by
    intro place m member
    have none : attending.session.coordinator.service place = default := rfl
    rw [none] at member
    cases member
  have answer : attending.start.2.toOption = some (some 0) := by decide +kernel
  have ended : ((typing.foldl Session.occur attending.start.1.session).schedule.outcome? 0).any Except.isOk = true := by
    decide +kernel
  have aside : ∀ o ∈ typing, o.isAside = true := List.all_eq_true.mp rfl
  have started := start_accepted answer
  obtain ⟨s, model, autostart, -, same, each⟩ := lines_carried_out fresh rfl quiet started
  refine ⟨fresh, rfl, quiet, _, started, ?_⟩
  obtain ⟨final, -⟩ := each typing aside
  have session := (congrArg (typing.foldl Session.occur) same).trans (Hearing.session_course { chronicle := _ } typing).symm
  exact ⟨_, model, autostart, session.symm, ended_over final (by rw [session] at ended; exact ended)⟩

/-- A machine with three states. The transition into the second one calls a service that fires the event
which leads on to the third. -/
private def ringing : Session where
  store := { cells := #[
    .map [(.text "initial", .text "A"), (.text "states", .tuple [.ref 1, .ref 4, .ref 6])],
    .map [(.text "name", .text "A"), (.text "events", .tuple [.ref 2])],
    .map [(.text "on", .text "go"), (.text "goto", .text "B"), (.text "do", .ref 3)],
    .map [(.text "name", .text "ring"), (.text "parameters", .tuple [.text "next"])],
    .map [(.text "name", .text "B"), (.text "events", .tuple [.ref 5])],
    .map [(.text "on", .text "next"), (.text "goto", .text "C")],
    .map [(.text "name", .text "C")]] }
  behavior := .coordinated
  coordinator :=
    { services := #[{ nature := { kind := "Service" }, provision := .listed, execution := .wrapped,
                      methods := [{ name := .text "ring", label := "ring", script := { action := .fire none } }] }]
      registry := [("", 0)] }
  machine := some {}

private def rung : Hearing :=
  ({ chronicle := ({ session := ringing } : Chronicle).course [.event (.load (.ref 0)), .event (.start true)] } : Hearing).course
    (List.replicate 8 (.event .step) ++ .event (.hear (some "go")) :: List.replicate 40 (.event .step) ++
      .event (.hear none) :: List.replicate 12 (.event .step))

set_option maxRecDepth 4000 in
/-- A service that calls the machine leads it on where the lines of input do not. -/
theorem ringing_differs : ringing.Fresh ∧ ringing.machine = some {} ∧
    rung.session.schedule.outcome? 0 = some (.ok []) ∧ rung.lines = [some "go", none] ∧
    (rung.session.machine.map (·.current)) = some (some (.ref 6)) ∧
      (Machine.course {} ringing.store [.load (.ref 0), .setRunning true, .fire (.text "go"), .setRunning false]).current =
        some (.ref 4) :=
  ⟨⟨rfl, rfl, rfl, rfl, rfl⟩, rfl, rfl, rfl, rfl, rfl⟩

end Runner

end Interaction
