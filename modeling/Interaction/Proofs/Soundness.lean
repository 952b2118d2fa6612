import Interaction.Proofs.Keeping
import Interaction.Proofs.Leading

/-! Validation is sound for what runs later. The steps that work on an accepted
configuration still has before it speak of calls that were checked, and whatever
validation found is found again: the configuration is kept and the registry only grows. -/

namespace Interaction

/-- What is known of the calls that an accepted configuration asks for. -/
structure Accepted (c : Coordinator) (d : Store) (whole : Value) (asked : Value → Prop) : Prop where
  aimed : ∀ call, asked call → ∃ target, c.target d call = .ok target
  parts : ∀ call, asked call → ∀ part ∈ d.parts call, asked part
  within : ∀ call, asked call → ∀ t, d.Keeps t whole → d.Keeps t call

/-- Whether a step speaks only of calls that were checked. -/
inductive Frame.Due (c : Coordinator) (d : Store) (whole : Value) (asked : Value → Prop) : Frame → Prop where
  | invoke {config given : Value} (member : asked config) : Due c d whole asked (.invoke config given)
  | map {target : Target} (member : asked target.config) (aimed : c.target d target.config = .ok target) :
      Due c d whole asked (.map target)
  | call {target : Target} (member : asked target.config) (aimed : c.target d target.config = .ok target) :
      Due c d whole asked (.call target)
  | follow {config : Value} (member : asked config) : Due c d whole asked (.follow config)
  | mapItem {mapping value : Value} {index : Nat} (members : ∀ call ∈ d.mappedCalls mapping, asked call)
      (within : ∀ t, d.Keeps t whole → d.Keeps t mapping) : Due c d whole asked (.mapItem mapping index value)
  | materialize (members : ∀ call ∈ d.given whole, asked call) : Due c d whole asked (.materialize whole)
  | arrange (members : ∀ call ∈ d.given whole, asked call) : Due c d whole asked (.arrange whole)
  | place {config : Value} {all : Bool} : Due c d whole asked (.place config all)
  | late {frame : Frame} (late : frame.isLate = true) : Due c d whole asked frame

namespace Session

/-- What is known of a session in which work on an accepted configuration goes on. -/
structure Upholds (s : Session) (c : Coordinator) (d : Store) (whole : Value) : Prop where
  registry : c.Extends s.coordinator
  document : d.Keeps s.store whole

variable {c : Coordinator} {d : Store} {whole : Value} {asked : Value → Prop} {s : Session}

theorem mem_mappedCalls_given {config call : Value} (member : call ∈ d.mappedCalls (d.field config "parameterMapping")) :
    call ∈ d.given config :=
  List.mem_append_right _ member

theorem mem_given_parts {config call : Value} (member : call ∈ d.given config) : call ∈ d.parts config :=
  List.mem_append_left _ member

theorem target_again (upholds : s.Upholds c d whole) (accepted : Accepted c d whole asked) {config : Value}
    (member : asked config) : ∃ target, c.target d config = .ok target ∧ target.config = config ∧
      s.coordinator.target s.store config = .ok target := by
  have kept := accepted.within config member s.store upholds.document
  obtain ⟨target, aimed⟩ := accepted.aimed config member
  exact ⟨target, aimed, (Coordinator.target_ok.mp aimed).2.1, upholds.registry.target kept.isMapping kept.field aimed⟩

theorem due_step (upholds : s.Upholds c d whole) (accepted : Accepted c d whole asked) {frame : Frame}
    (due : frame.Due c d whole asked) (values : List Value) {frames : List Frame} {supply : Supply}
    (stands : (s.takeStep frame values).2.stand? = some (frames, supply)) :
    ∀ frame ∈ frames, frame.Due c d whole asked := by
  have leading := leading_step stands
  cases due with
  | @invoke config given member =>
    obtain ⟨target, aimed, same, again⟩ := target_again upholds accepted member
    have mapped : (Frame.map target).Due c d whole asked := .map (same ▸ member) (same ▸ aimed)
    cases leading with
    | @derive _ _ inner _ found source =>
      cases again.symm.trans found
      have kept := accepted.within _ member _ upholds.document
      rw [kept.field, (kept.of_field _).source] at source
      have part : asked inner := accepted.parts _ member inner (mem_given_parts (Store.mem_given_derived source))
      simpa using ⟨.invoke part, mapped⟩
    | aim found =>
      cases again.symm.trans found
      simpa using mapped
  | @map target member aimed =>
    cases leading
    simpa using Frame.Due.call member aimed
  | @call target member aimed =>
    cases leading with
    | promise replied => simpa using Frame.Due.follow member
    | steps replied =>
      refine List.forall_mem_append.mpr ⟨fun frame among => ?_, by simpa using Frame.Due.follow member⟩
      exact .late (late_reply s target values replied frame among)
  | @follow config member =>
    cases leading with
    | result mapping =>
      have kept := accepted.within _ member _ upholds.document
      rw [kept.field, (kept.of_field _).isMapping] at mapping
      have part : d.field config "resultMapping" ∈ d.parts config :=
        List.mem_append_right _ (by simpa using mapping)
      simpa [kept.field] using Frame.Due.invoke (accepted.parts _ member _ part)
    | follow => simp
  | @mapItem mapping value index members within =>
    cases leading with
    | @item _ _ config _ found =>
      rw [(within _ upholds.document).mappedCall?] at found
      obtain ⟨hit, isCall⟩ := Option.filter_eq_some_iff.mp found
      have among : config ∈ d.mappedCalls mapping := List.mem_filter.mpr ⟨List.mem_of_getElem? hit, isCall⟩
      simpa using Frame.Due.invoke (members config among)
    | pass => simp
  | materialize members =>
    cases leading with
    | @situate _ inner source =>
      rw [upholds.document.field, (upholds.document.of_field _).source] at source
      simpa using ⟨.invoke (members inner (Store.mem_given_derived source)), .arrange members⟩
    | materialize => simpa using Frame.Due.place
  | arrange members =>
    cases leading
    simpa using Frame.Due.place
  | place =>
    cases leading
    simp
  | late isLate =>
    obtain rfl := leading.late isLate
    simp

theorem due_mapEach {config : Value} (kept : ∀ t, d.Keeps t whole → d.Keeps t config)
    (document : d.Keeps s.store whole) (members : ∀ call ∈ d.given config, asked call) {values : List Value} {next : List Frame}
    {id : Nat} {frames : List Frame} (new : s.schedule.promises.size ≤ id)
    (origin : (s.mapEach (s.store.field config "parameterMapping") values next).1.schedule.origin? id =
      some (.task frames)) : ∀ frame ∈ frames, frame.Due c d whole asked := by
  obtain ⟨index, value, rfl⟩ := mapEach_new s _ values next new origin
  rw [(kept _ document).field]
  simpa using Frame.Due.mapItem (fun call among => members call (mem_mappedCalls_given among))
    fun t document => (kept t document).of_field _

theorem due_offspring (upholds : s.Upholds c d whole) (accepted : Accepted c d whole asked) {frame : Frame}
    (due : frame.Due c d whole asked) (values : List Value) {id : Nat} (member : id ∈ s.offspring frame values)
    {frames : List Frame} (origin : (s.takeStep frame values).1.schedule.origin? id = some (.task frames)) :
    ∀ frame ∈ frames, frame.Due c d whole asked := by
  have new := (mem_offspring member).1
  have nothing (same : (s.takeStep frame values).1.schedule = s.schedule) : False := by
    rw [same] at origin
    exact absurd (Schedule.origin?_inside origin) (Nat.not_lt_of_le new)
  cases due with
  | @invoke config given among => exact False.elim (nothing (by rw [takeStep, fst_invoke]))
  | @map target among aimed =>
    exact due_mapEach (accepted.within _ among) upholds.document
      (fun call part => accepted.parts _ among call (mem_given_parts part)) new origin
  | @call target among aimed =>
    simp only [offspring] at member
    split at member
    next id replied =>
      cases List.mem_singleton.mp member
      exact fun frame inside => .late ((answers_reply s target values replied).late frames origin frame inside)
    · cases member
  | follow among =>
    refine False.elim (nothing ?_)
    simp only [takeStep, followCall]
    split <;> rfl
  | mapItem members within =>
    refine False.elim (nothing ?_)
    simp only [takeStep]
    split <;> rfl
  | materialize members =>
    rcases s.fetch_cases whole [] [.arrange whole] _ with ⟨fault, same⟩ | ⟨inner, _, same⟩ | ⟨params, same⟩
    · exact False.elim (nothing (congrArg (·.1.schedule) same))
    · exact False.elim (nothing (congrArg (·.1.schedule) same))
    · rw [takeStep, materialize, same] at origin
      exact due_mapEach (fun _ kept => kept) upholds.document members new origin
  | arrange members =>
    rcases s.arrange_cases whole values with same | ⟨items, same⟩
    · exact False.elim (nothing (congrArg (·.1.schedule) same))
    · rw [takeStep, same] at origin
      exact due_mapEach (fun _ kept => kept) upholds.document members new origin
  | @place config all => exact False.elim (nothing (schedule_place s config all values))
  | late isLate =>
    cases frame with
    | pause => exact False.elim (nothing rfl)
    | act action request => cases member
    | _ => cases isLate

/-- A service that lists its methods and hands over every end to a promise does not refuse
a method that it was found to provide. -/
theorem reply_provided (registry : c.Extends s.coordinator) {target : Target} {call : Value}
    (aimed : c.target d call = .ok target) (wrapped : (c.service target.service).execution = .wrapped)
    (listed : (c.service target.service).provision = .listed) (values : List Value) (name : String) :
    s.reply target values ≠ .fault (.noMethod name) := by
  obtain ⟨_, _, _, _, _, _, provided⟩ := Coordinator.target_ok.mp aimed
  have present := Coordinator.provision_of_provides provided
  obtain ⟨provision, execution⟩ := registry.kept present
  have later := registry.provided provided
  rw [wrapped] at execution
  simp only [Service.provides?, provision.trans listed, Option.some.injEq] at later
  obtain ⟨m, found⟩ := Option.isSome_iff_exists.mp later
  have coordinator : (s.announceCall target values).coordinator = s.coordinator := rfl
  simp only [reply, execute, coordinator, execution, found, checkName, Store.container?, ne_eq]
  intro failed
  obtain ⟨id, given⟩ | given := callWrapped_cases _ _ _ <;> cases given.symm.trans failed

/-- What is done for an accepted configuration: lookups that find what validation found, and
calls whose methods are there. -/
def Sound (c : Coordinator) (d : Store) (asked : Value → Prop) : Deed → Prop
  | .lookup config answer => asked config ∧ ∃ target, c.target d config = .ok target ∧ answer = .ok target
  | .call _ target _ reply => (c.service target.service).execution = .wrapped →
    (c.service target.service).provision = .listed → ∀ name, reply ≠ .fault (.noMethod name)
  | .place _ _ _ _ => True

theorem sound_deeds (upholds : s.Upholds c d whole) (accepted : Accepted c d whole asked) {frame : Frame}
    (due : frame.Due c d whole asked) (task : Nat) (values : List Value) :
    ∀ deed ∈ s.deeds task frame values, Sound c d asked deed := by
  cases due with
  | @invoke config given member =>
    obtain ⟨target, aimed, _, again⟩ := target_again upholds accepted member
    simp only [deeds, List.mem_singleton, forall_eq, Sound]
    exact ⟨member, target, aimed, again⟩
  | call member aimed =>
    simpa [deeds, Sound] using fun wrapped listed => reply_provided upholds.registry aimed wrapped listed values
  | late isLate =>
    cases frame with
    | pause => simp [deeds]
    | act action request => simp [deeds]
    | _ => cases isLate
  | place => simp [deeds, Sound]
  | _ => simp [deeds]

end Session

/-- What is true of an account of the work on an accepted configuration. -/
structure Account.Checked (c : Coordinator) (d : Store) (whole : Value) (asked : Value → Prop) (a : Account) : Prop where
  orderly : a.session.Orderly a.session.running
  registry : c.Extends a.session.coordinator
  inside : ∀ id ∈ a.family, id < a.session.schedule.promises.size
  due : ∀ task ∈ a.family, ∀ frames supply, a.session.Stands task frames supply →
    ∀ frame ∈ frames, frame.Due c d whole asked
  sound : ∀ deed ∈ a.deeds, Session.Sound c d asked deed

namespace Account.Checked

variable {c : Coordinator} {d : Store} {whole : Value} {asked : Value → Prop} {a : Account}

/-- Whatever happens, the steps before the family stay due, and its deeds sound. -/
theorem happen (accepted : Accepted c d whole asked) (checked : a.Checked c d whole asked)
    (document : d.Keeps a.session.store whole) (e : Event) : (a.happen e).Checked c d whole asked := by
  obtain ⟨orderly, registry, inside, due, sound⟩ := checked
  have size := (orderly.enlarges e).size
  have extended := (orderly.enlarges e).coordinator
  rcases a.happen_cases e with ⟨own, frame, rest, values, rfl, turn, member, same⟩ | ⟨same, others⟩
  · have first := due own member _ _ (.turn turn)
    have upholds : a.session.Upholds c d whole := ⟨registry, document⟩
    have dueFrame := first frame (List.mem_cons_self ..)
    have within : ∀ id ∈ a.family ++ a.session.offspring frame values,
        id < (a.session.happen .step).schedule.promises.size := by
      intro id among
      rcases List.mem_append.mp among with old | new
      · exact Nat.lt_of_lt_of_le (inside id old) size
      · exact Session.offspring_inside orderly turn new
    rw [same]
    refine ⟨orderly.happen .step, registry.trans extended, within, ?_, ?_⟩
    · intro task among frames supply stands
      rcases List.mem_append.mp among with old | new
      · rcases Session.stands_happen orderly .step (inside task old) stands with
          ⟨before, stood, _⟩ | ⟨_, frame', rest', values', turn', next, before, left, rfl, _⟩
        · exact due task old frames before stood
        · cases turn.symm.trans turn'
          intro f isNext
          rcases List.mem_append.mp isNext with fresh | kept
          · exact Session.due_step upholds accepted dueFrame values left f fresh
          · exact first f (List.mem_cons_of_mem _ kept)
      · obtain ⟨rfl, origin⟩ := Session.stands_new orderly turn (Session.mem_offspring new).1 stands
        exact Session.due_offspring upholds accepted dueFrame values new origin
    · intro deed done
      rcases List.mem_append.mp done with old | new
      · exact sound deed old
      · exact Session.sound_deeds upholds accepted dueFrame own values deed new
  · rw [same]
    refine ⟨orderly.happen e, registry.trans extended, fun id among => Nat.lt_of_lt_of_le (inside id among) size,
      ?_, sound⟩
    intro task among frames supply stands
    rcases Session.stands_happen orderly e (inside task among) stands with
      ⟨before, stood, _⟩ | ⟨isStep, frame, rest, values, turn, _⟩
    · exact due task among frames before stood
    · exact absurd among (others task frame rest values isStep turn)

end Account.Checked

namespace Session

/-- The account of the work on a configuration that has just been executed. -/
def account (s : Session) (entry : Entry) (config : Value) (id : Nat) : Account :=
  { session := (s.coordinate entry config).1, family := [id] }

/-- The calls that a configuration asks for, and those nested in them. -/
def Asks (s : Store) (entry : Entry) (config call : Value) : Prop :=
  ∃ root ∈ entry.roots s config, s.Leads root call

theorem asks_part {s : Store} {entry : Entry} {config call part : Value} (asked : Asks s entry config call)
    (member : part ∈ s.parts call) : Asks s entry config part := by
  obtain ⟨root, isRoot, leads⟩ := asked
  exact ⟨root, isRoot, leads.trans (.part member (.self part))⟩

theorem asks_kept {s t : Store} {entry : Entry} {config call : Value} (asked : Asks s entry config call)
    (kept : s.Keeps t config) : s.Keeps t call := by
  obtain ⟨root, isRoot, leads⟩ := asked
  refine Store.Keeps.leads ?_ leads
  cases entry with
  | transition => rwa [List.mem_singleton.mp isRoot]
  | state => exact kept.given root isRoot

theorem coordinate_accepted {s : Session} {entry : Entry} {config : Value} {id : Nat}
    (mapping : s.store.isMapping config = true) (accepted : (s.coordinate entry config).2 = .ok id) :
    Accepted s.coordinator s.store config (Asks s.store entry config) := by
  refine ⟨?_, fun call asked part member => asks_part asked member,
    fun call asked t kept => asks_kept asked kept⟩
  intro call asked
  rw [coordinate_eq s entry mapping] at accepted
  split at accepted
  · cases accepted
  next passed =>
    obtain ⟨root, isRoot, leads⟩ := asked
    exact Coordinator.check_leads (Coordinator.checkEach_ok.mp passed root isRoot) leads

theorem stands_spawn {s : Session} (orderly : s.Orderly s.running) {frames steps : List Frame} {supply : Supply}
    (stands : (s.spawn frames).1.Stands s.schedule.promises.size steps supply) :
    steps = frames ∧ supply = .values [] := by
  have extended := (Grows.spawn s frames).extends
  have fresh (old : s.schedule.Open s.schedule.promises.size) : False := Nat.lt_irrefl _ old.1
  have origin := s.schedule.origin?_spawn frames
  cases stands with
  | turn turn => exact False.elim (fresh ((Stands.turn (extended.turn.symm.trans turn)).alive orderly).1)
  | queued queued held =>
    cases origin.symm.trans held
    exact ⟨rfl, rfl⟩
  | waiting noticed held =>
    have woken := Schedule.mem_wakes.mpr (Or.inr ⟨_, extended.schedule.resumed.mp noticed⟩)
    exact False.elim (fresh (orderly.schedule.alive _ (List.mem_append_right _ woken)).1)

theorem coordinate_spawns {s : Session} {entry : Entry} {config : Value} {id : Nat}
    (mapping : s.store.isMapping config = true) (accepted : (s.coordinate entry config).2 = .ok id) :
    id = s.schedule.promises.size ∧ (s.coordinate entry config).1 = (s.spawn [entry.frame config]).1 := by
  rw [coordinate_eq s entry mapping] at accepted ⊢
  split at accepted
  · cases accepted
  · cases accepted
    exact ⟨rfl, rfl⟩

theorem account_checked {s : Session} (orderly : s.Orderly s.running) {entry : Entry} {config : Value} {id : Nat}
    (mapping : s.store.isMapping config = true) (accepted : (s.coordinate entry config).2 = .ok id) :
    (s.account entry config id).Checked s.coordinator s.store config (Asks s.store entry config) := by
  have grows : s.Grows (s.spawn [entry.frame config]).1 := .spawn s _
  obtain ⟨rfl, started⟩ := coordinate_spawns mapping accepted
  rw [account, started]
  constructor
  case orderly =>
    rw [running, grows.extends.turn]
    exact orderly.grows grows
  case registry => exact grows.extends.coordinator
  case inside =>
    simp only [List.mem_singleton, forall_eq]
    exact Schedule.origin?_inside (s.schedule.origin?_spawn _)
  case due =>
    simp only [List.mem_singleton, forall_eq]
    intro frames supply stands
    obtain ⟨rfl, rfl⟩ := stands_spawn orderly stands
    simp only [List.mem_singleton, forall_eq]
    cases entry with
    | transition => exact .invoke ⟨config, List.mem_singleton_self _, .self _⟩
    | state => exact .materialize fun call member => ⟨call, member, .self _⟩
  case sound => simp

theorem coordinate_idle {s : Session} {entry : Entry} {config : Value} {id : Nat}
    (other : s.store.isMapping config = false) (accepted : (s.coordinate entry config).2 = .ok id) :
    ∃ t, s.Grows t ∧ s.coordinate entry config = ((t.settled (.ok [])).1, .ok (t.settled (.ok [])).2) := by
  cases entry with
  | transition => exact ⟨s, .refl s, by simp [coordinate, coordinateTransition, other]⟩
  | state =>
    cases null : config.isNull with
    | true => exact ⟨_, .log s _, by simp only [coordinate, coordinateState, null, if_true]; rfl⟩
    | false =>
      rw [(coordinate_other other).mpr ⟨rfl, null, rfl⟩] at accepted
      cases accepted

theorem account_idle {s : Session} (orderly : s.Orderly s.running) {entry : Entry} {config : Value} {id : Nat}
    (other : s.store.isMapping config = false) (accepted : (s.coordinate entry config).2 = .ok id) :
    (s.account entry config id).Checked s.coordinator s.store config fun _ => False := by
  obtain ⟨t, grows, answered⟩ := coordinate_idle other accepted
  have settled := grows.trans (.settled t (.ok []))
  rw [answered] at accepted
  cases accepted
  rw [account, answered]
  have orderly' : (t.settled (.ok [])).1.Orderly (t.settled (.ok [])).1.running := by
    rw [running, settled.extends.turn]
    exact orderly.grows settled
  constructor
  case orderly => exact orderly'
  case registry => exact settled.extends.coordinator
  case inside =>
    simp only [List.mem_singleton, forall_eq]
    exact (answers_settled t _).inside
  case due =>
    simp only [List.mem_singleton, forall_eq]
    intro frames supply stands
    have ended : (t.settled (.ok [])).1.schedule.outcome? (t.settled (.ok [])).2 = some (.ok []) :=
      (Schedule.outcome?_add ..).trans (if_pos rfl)
    cases ended.symm.trans (stands.alive orderly').1.2
  case sound => simp

/-- Whatever is looked up for an accepted configuration is a call that it asks for, and the
lookup finds what validation found, as long as the configuration is not changed; so would
any lookup of these calls. Where the service lists its methods and hands over every end
to a promise, the method is there. -/
theorem coordinate_sound {s : Session} (reachable : s.Reachable) (entry : Entry) (config : Value) (id : Nat)
    (accepted : (s.coordinate entry config).2 = .ok id) (events : List Event)
    (kept : (s.account entry config id).Throughout (fun a => s.store.Keeps a.session.store config) events) :
    (∀ call answer, .lookup call answer ∈ ((s.account entry config id).run events).deeds →
      Asks s.store entry config call ∧ ∃ target, s.coordinator.target s.store call = .ok target ∧ answer = .ok target) ∧
    (s.store.isMapping config = true → ∀ call, Asks s.store entry config call →
      ∃ target, s.coordinator.target s.store call = .ok target ∧
        ((s.account entry config id).run events).session.coordinator.target
          ((s.account entry config id).run events).session.store call = .ok target) ∧
    (∀ task target params reply, .call task target params reply ∈ ((s.account entry config id).run events).deeds →
      (s.coordinator.service target.service).execution = .wrapped →
      (s.coordinator.service target.service).provision = .listed → ∀ name, reply ≠ .fault (.noMethod name)) := by
  cases mapping : s.store.isMapping config with
  | true =>
    have known := coordinate_accepted mapping accepted
    have checked := kept.induction (account_checked reachable.orderly mapping accepted)
      fun a e document _ checked => checked.happen known document e
    refine ⟨fun call answer done => checked.sound _ done, ?_,
      fun task target params reply done => checked.sound _ done⟩
    intro _ call asked
    obtain ⟨target, aimed, _, again⟩ := target_again ⟨checked.registry, kept.last⟩ known asked
    exact ⟨target, aimed, again⟩
  | false =>
    have known : Accepted s.coordinator s.store config fun _ => False :=
      ⟨fun _ none => none.elim, fun _ none => none.elim, fun _ none => none.elim⟩
    have checked := kept.induction (account_idle reachable.orderly mapping accepted)
      fun a e document _ checked => checked.happen known document e
    exact ⟨fun call answer done => (checked.sound _ done).1.elim, fun absent => (nomatch absent),
      fun task target params reply done => checked.sound _ done⟩

/-- A session whose default service shows things, and a call in it whose parameters come
from another call. -/
private def showing : Session where
  store := { cells := #[
    .map [(.text "name", .text "show")],
    .map [(.text "name", .text "show"), (.text "parameters", .ref 0)]] }
  coordinator :=
    { services := #[{ nature := { kind := "Service" }, provision := .listed, execution := .wrapped,
                      methods := [{ name := .text "show", label := "show", script := { action := .echo } }] }]
      registry := [("", 0)] }

/-- Some steps, between which a service is registered and a method exposed. -/
private def showingEvents : List Event :=
  [.step, .step, .register (.text "other") (some 0), .step, .expose 0 (.text "hide") "hide" { action := .echo }, .step]

theorem showing_sound : showing.Reachable ∧ (showing.coordinate .transition (.ref 1)).2 = .ok 0 ∧
    ((showing.account .transition (.ref 1) 0).run showingEvents).deeds.length = 2 ∧
    ∀ call answer, .lookup call answer ∈ ((showing.account .transition (.ref 1) 0).run showingEvents).deeds →
      ∃ target, answer = .ok target := by
  have reachable : showing.Reachable := ⟨showing, [], ⟨rfl, rfl, rfl, rfl, rfl⟩, rfl⟩
  have accepted : (showing.coordinate .transition (.ref 1)).2 = .ok 0 := rfl
  have same {t : Session} (unchanged : t.store = showing.store) : showing.store.Keeps t.store (.ref 1) :=
    unchanged ▸ Store.keeps_refl _ _
  have kept : (showing.account .transition (.ref 1) 0).Throughout
      (fun a => showing.store.Keeps a.session.store (.ref 1)) showingEvents :=
    ⟨same rfl, same rfl, same rfl, same rfl, same rfl, same rfl, same rfl⟩
  refine ⟨reachable, accepted, rfl, ?_⟩
  intro call answer done
  obtain ⟨_, target, _, found⟩ := (coordinate_sound reachable .transition (.ref 1) 0 accepted showingEvents kept).1
    call answer done
  exact ⟨target, found⟩

end Session

end Interaction
