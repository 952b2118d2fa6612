import Interaction.Proofs.QuietMachine

/-! The registry of services. Only a registration that is accepted changes it, by putting a name at its end that
it did not have. So a name keeps the service of the call that was first accepted for it, and the empty name,
which no call can take, keeps the default service. -/

namespace Interaction

namespace Coordinator

variable {c d e : Coordinator} {name : Value} {place : Option Nat} {cause : RegistrationFault} {text : String} {p : Nat}

/-- Why a registration is refused. -/
inductive Refuses (c : Coordinator) (name : Value) (place : Option Nat) : RegistrationFault → Prop where
  | noName (bad : ∀ text, name = .text text → text = "") : Refuses c name place .noName
  | noExecute {text : String} (named : name = .text text) (nonempty : text ≠ "")
      (unable : ∀ p, place = some p → (c.service p).isExecutable = false) : Refuses c name place .noExecute
  | taken {text : String} {p : Nat} (named : name = .text text) (nonempty : text ≠ "") (given : place = some p)
      (able : (c.service p).isExecutable = true) (known : c.find? (some text) ≠ none) : Refuses c name place (.taken text)

/-- What a registration puts at the end of the registry if it is accepted. -/
structure Accepts (c : Coordinator) (name : Value) (place : Option Nat) (text : String) (p : Nat) : Prop where
  named : name = .text text
  nonempty : text ≠ ""
  given : place = some p
  able : (c.service p).isExecutable = true
  unknown : c.find? (some text) = none

/-- The coordinator whose registry has one more name. -/
def enrol (c : Coordinator) (text : String) (p : Nat) : Coordinator :=
  { c with registry := c.registry ++ [(text, p)] }

theorem register_text (nonempty : text ≠ "") : c.register (.text text) place =
    match place.filter fun p => (c.service p).isExecutable with
    | none => .error .noExecute
    | some p => if (c.find? (some text)).isSome then .error (.taken text) else .ok (c.enrol text p,
        .behavior Level.info ("Registered service '" ++ text ++ "' (" ++ (c.service p).kind ++ ")")) := by
  simp only [register, String.isEmpty_iff, nonempty, if_false]
  rfl

/-- A registration is refused or accepted. -/
theorem register_cases (c : Coordinator) (name : Value) (place : Option Nat) :
    (∃ cause, c.register name place = .error cause ∧ c.Refuses name place cause) ∨
      ∃ text p record, c.register name place = .ok (c.enrol text p, record) ∧ c.Accepts name place text p := by
  by_cases named : ∃ text, name = .text text ∧ text ≠ ""
  · obtain ⟨text, rfl, nonempty⟩ := named
    rw [register_text nonempty]
    cases able : place.filter fun p => (c.service p).isExecutable with
    | none =>
      refine Or.inl ⟨_, rfl, .noExecute rfl nonempty fun p given => ?_⟩
      simpa [given] using able
    | some p =>
      obtain ⟨given, executable⟩ := Option.filter_eq_some_iff.mp able
      cases known : c.find? (some text) with
      | none => exact Or.inr ⟨text, p, _, rfl, rfl, nonempty, given, executable, known⟩
      | some other => exact Or.inl ⟨_, rfl, .taken rfl nonempty given executable (by simp [known])⟩
  · refine Or.inl ⟨.noName, ?_, .noName fun text same => Classical.byContradiction fun nonempty => named ⟨text, same, nonempty⟩⟩
    unfold register
    split
    next text =>
      have empty : text = "" := Classical.byContradiction fun nonempty => named ⟨text, rfl, nonempty⟩
      simp [empty]
    · rfl

theorem Refuses.register (refuses : c.Refuses name place cause) : c.register name place = .error cause := by
  cases refuses with
  | noName bad =>
    rcases c.register_cases name place with ⟨cause, refused, refuses⟩ | ⟨text, p, record, _, accepts⟩
    · cases refuses with
      | noName _ => exact refused
      | noExecute named nonempty _ => exact absurd (bad _ named) nonempty
      | taken named nonempty _ _ _ => exact absurd (bad _ named) nonempty
    · exact absurd (bad _ accepts.named) accepts.nonempty
  | noExecute named nonempty unable =>
    subst named
    have none : place.filter (fun p => (c.service p).isExecutable) = none := by
      simpa [Option.filter_eq_none_iff] using unable
    rw [register_text nonempty, none]
  | taken named nonempty given able known =>
    subst named given
    rw [register_text nonempty, Option.filter_some, if_pos able]
    simp only [Option.isSome_iff_ne_none.mpr known, if_true]

/-- Whether nothing is registered, and all objects that can execute methods still can. -/
structure Retains (c d : Coordinator) : Prop where
  registry : d.registry = c.registry
  able : ∀ p, (c.service p).isExecutable = true → (d.service p).isExecutable = true

theorem Retains.refl (c : Coordinator) : c.Retains c :=
  ⟨rfl, fun _ able => able⟩

theorem Retains.trans (first : c.Retains d) (last : d.Retains e) : c.Retains e :=
  ⟨last.registry.trans first.registry, fun p able => last.able p (first.able p able)⟩

/-- Whether a registry consists of the default service, if there is one, and of services that can execute methods,
each under a name of its own. -/
structure Enlists (c : Coordinator) (default : Option Nat) (entries : List (String × Nat)) : Prop where
  registry : c.registry = (default.toList.map fun place => ("", place)) ++ entries
  named : ∀ entry ∈ entries, entry.1 ≠ ""
  distinct : (entries.map (·.1)).Nodup
  able : ∀ entry ∈ entries, (c.service entry.2).isExecutable = true

theorem lookup_eq_some {entries : List (String × Nat)} (distinct : (entries.map (·.1)).Nodup) :
    entries.lookup text = some p ↔ (text, p) ∈ entries := by
  rw [List.lookup_eq_some_iff]
  constructor
  · rintro ⟨before, after, rfl, -⟩
    simp
  · intro member
    obtain ⟨before, after, rfl⟩ := List.append_of_mem member
    refine ⟨before, after, rfl, fun entry earlier => ?_⟩
    rw [List.map_append, List.map_cons] at distinct
    have apart := (List.nodup_append.mp distinct).2.2 entry.1 (List.mem_map_of_mem earlier) text (by simp)
    simpa using apart.symm

namespace Enlists

variable {default : Option Nat} {entries : List (String × Nat)}

theorem find?_default (enlists : c.Enlists default entries) : c.find? none = default := by
  have unnamed : entries.lookup "" = none := by
    rw [List.lookup_eq_none_iff]
    intro entry member
    simpa using (enlists.named entry member).symm
  rw [find?, enlists.registry, List.lookup_append, Option.getD_none, unnamed]
  cases default <;> rfl

theorem find?_text (enlists : c.Enlists default entries) (nonempty : text ≠ "") :
    c.find? (some text) = some p ↔ (text, p) ∈ entries := by
  have first : (default.toList.map fun place => ("", place)).lookup text = none := by
    rw [List.lookup_eq_none_iff]
    simp [nonempty]
  rw [find?, enlists.registry, List.lookup_append, Option.getD_some, first, Option.none_or, lookup_eq_some enlists.distinct]

theorem retains (enlists : c.Enlists default entries) (retains : c.Retains d) : d.Enlists default entries where
  registry := retains.registry.trans enlists.registry
  named := enlists.named
  distinct := enlists.distinct
  able entry member := retains.able entry.2 (enlists.able entry member)

theorem enrol (enlists : c.Enlists default entries) (accepts : c.Accepts name place text p) :
    (c.enrol text p).Enlists default (entries ++ [(text, p)]) where
  registry := by simp only [Coordinator.enrol, enlists.registry, List.append_assoc]
  named entry member := by
    rcases List.mem_append.mp member with old | new
    · exact enlists.named entry old
    · rw [List.mem_singleton.mp new]
      exact accepts.nonempty
  distinct := by
    rw [List.map_append, List.nodup_append]
    refine ⟨enlists.distinct, by simp, ?_⟩
    rintro known among new isNew rfl
    obtain ⟨⟨other, q⟩, member, rfl⟩ := List.mem_map.mp among
    obtain rfl : other = text := by simpa using isNew
    have found := (enlists.find?_text accepts.nonempty).mpr member
    cases accepts.unknown.symm.trans found
  able entry member := by
    rcases List.mem_append.mp member with old | new
    · exact enlists.able entry old
    · rw [List.mem_singleton.mp new]
      exact accepts.able

end Enlists

theorem Retains.count (c : Coordinator) (counter : Nat) : c.Retains (c.count counter) :=
  ⟨rfl, fun _ able => able⟩

theorem Retains.expose (c : Coordinator) (place : Nat) (m : Method) : c.Retains (c.expose place m) := by
  refine ⟨rfl, fun p able => ?_⟩
  rcases service_expose c place m p with same | ⟨added, same⟩ <;> rw [same] <;> exact able

theorem Retains.addService (c : Coordinator) (service : Service) : c.Retains (c.addService service).1 := by
  refine ⟨rfl, fun p able => ?_⟩
  have inside : p < c.services.size := by
    apply Classical.byContradiction
    intro outside
    rw [Coordinator.service, Array.getElem?_eq_none (Nat.le_of_not_lt outside)] at able
    cases able
  rwa [service_addService c service inside]

end Coordinator

namespace Session

variable {s t : Session}

theorem coordinator_logAll (s : Session) (rs : List Record) : (s.logAll rs).coordinator = s.coordinator := by
  rw [logAll_eq]

theorem coordinator_coordinate (s : Session) (entry : Entry) (config : Value) :
    (s.coordinate entry config).1.coordinator = s.coordinator := by
  cases entry with
  | transition =>
    rw [coordinate, coordinateTransition, callService]
    split
    · split <;> rfl
    · rfl
  | state =>
    rw [coordinate, coordinateState]
    split
    · rfl
    · split <;> rfl

theorem coordinator_consult (s : Session) (entry : Entry) (config : Value) :
    (s.consult entry config).1.coordinator = s.coordinator := by
  have consults := s.consults entry config
  generalize (s.consult entry config).1 = t at consults ⊢
  cases consults with
  | absent => rfl
  | canned _ _ answer => cases answer <;> rfl
  | coordinated => exact s.coordinator_coordinate entry config

theorem coordinator_perform (s : Session) (e : Entrance) : (s.perform e).1.coordinator = s.coordinator := by
  have consulted := s.coordinator_consult (s.behaviorOf e).1 (s.behaviorOf e).2
  have enacts := s.enacts_perform e
  generalize s.perform e = result, s.follower? e = f at enacts
  cases enacts with
  | absent => rfl
  | raised _ asked | nothing _ _ asked | state _ _ asked | transition _ _ asked =>
    rw [asked] at consulted
    exact consulted

theorem coordinator_operate (s : Session) (o : Operation) : (s.operate o).coordinator = s.coordinator := by
  have opened : (s.opened o).coordinator = s.coordinator := by
    unfold Session.opened
    split
    · rfl
    · exact coordinator_logAll ..
  unfold operate
  cases s.entrance? o with
  | none => exact opened
  | some e => exact (coordinator_perform ..).trans opened

theorem coordinator_act (s : Session) (action : Action) (request : Request) :
    (s.act action request).1.coordinator = s.coordinator := by
  cases action with
  | compute run => rfl
  | fire event =>
    rw [fst_act, fst_fire]
    exact s.coordinator_operate _
  | defer => rfl

theorem Calls.coordinator {script : Script} {request : Request} {direct : Bool} {result : Session × Reply}
    (calls : s.Calls script request direct result) : result.1.coordinator = s.coordinator := by
  cases calls with
  | defer | late | steps => rfl
  | stopped | settled | plain | raised => exact s.coordinator_act script.action request

theorem retains_execute (s : Session) (place : Nat) (name : Value) (params : List Value) :
    s.coordinator.Retains (s.execute place name params).1.coordinator := by
  have responds := s.responds_execute place name params
  generalize s.execute place name params = result at responds ⊢
  cases responds with
  | refused => exact .refl _
  | called _ _ _ calls => exact calls.coordinator ▸ .count ..

theorem coordinator_mapEach (s : Session) (mapping : Value) (values : List Value) (frames : List Frame) :
    (s.mapEach mapping values frames).1.coordinator = s.coordinator := by
  rw [mapEach_eq]
  split <;> rfl

theorem retains_place (s : Session) (config : Value) (whole : Bool) (values : List Value) :
    s.coordinator.Retains (s.place config whole values).1.coordinator := by
  obtain ⟨_, _, _, same, _⟩ := s.place_made config whole values
  rw [same]
  exact ⟨rfl, fun _ able => able⟩

theorem Obeys.coordinator {s t : Session} {o : Option Operation} (obeys : s.Obeys o t) : t.coordinator = s.coordinator := by
  cases obeys with
  | idle | quit => rfl
  | operates o | fails o => exact s.coordinator_operate o

theorem Acting.retains {s t : Session} {frame : Frame} {values : List Value} (acting : s.Acting values frame t) :
    s.coordinator.Retains t.coordinator := by
  have same (coordinator : t.coordinator = s.coordinator) : s.coordinator.Retains t.coordinator := coordinator ▸ .refl _
  cases acting with
  | idle | drain | ask | announce | stopped => exact .refl _
  | map _ mapping items next => exact same (s.coordinator_mapEach mapping items next)
  | call target =>
    rw [fst_callTarget]
    exact retains_execute (s.announceCall target values) ..
  | place config whole => exact retains_place ..
  | enter target => exact same (s.coordinator_consult .state (s.store.field target "do"))
  | act action request => exact same (coordinator_act ..)
  | line text => exact same (s.obeys_line text).coordinator
  | stop => exact same (s.fst_setRunning false ▸ s.coordinator_operate (.setRunning false))

theorem retains_step (s : Session) : s.coordinator.Retains (s.happen .step).coordinator := by
  cases stepped : s.step with
  | none =>
    rw [happen, stepped]
    exact .refl _
  | some t =>
    rw [happen, stepped, Option.getD_some]
    rcases step_cases stepped with ⟨_, _, _, rfl⟩ | ⟨task, frame, rest, values, _, rfl⟩ | ⟨job, queue, _, _, rfl⟩
    · exact .refl _
    · rw [services_move]
      exact (s.acting_step frame values).retains
    · rw [services_doJob]
      exact .refl _

theorem retains_expose (s : Session) (place : Nat) (name : Value) (label : String) (script : Script) :
    s.coordinator.Retains (s.expose place name label script).1.coordinator := by
  unfold expose
  split
  · exact .refl _
  · exact .expose ..

theorem retains_addService (s : Session) (service : Service) (methods : List (String × Script)) :
    s.coordinator.Retains (s.addService service methods).1.coordinator := by
  have exposed (place : Nat) (t : Session) : t.coordinator.Retains
      (methods.foldl (fun s m => (s.expose place (.text m.1) m.1 m.2).1) t).coordinator := by
    induction methods generalizing t with
    | nil => exact .refl _
    | cons method rest ih => exact (t.retains_expose ..).trans (ih _)
  exact (Coordinator.Retains.addService s.coordinator service).trans
    (exposed s.coordinator.services.size { s with coordinator := (s.coordinator.addService service).1 })

/-- What an event puts into the registry: the name and the place of a service whose registration is accepted. -/
def enrolled? (s : Session) : Event → Option (String × Nat)
  | .register (.text text) (some place) =>
    if (s.coordinator.register (.text text) (some place)).isOk then some (text, place) else none
  | _ => none

/-- What is put into the registry in the course of events. -/
def enrolments (s : Session) : List Event → List (String × Nat)
  | [] => []
  | e :: rest => (s.enrolled? e).toList ++ (s.happen e).enrolments rest

/-- Nothing else than a registration changes the registry. -/
theorem retains_happen (s : Session) {e : Event} (other : ∀ name place, e ≠ .register name place) :
    s.coordinator.Retains (s.happen e).coordinator := by
  have same {t : Session} (coordinator : t.coordinator = s.coordinator) : s.coordinator.Retains t.coordinator :=
    coordinator ▸ .refl _
  cases e with
  | step => exact s.retains_step
  | answer index outcome =>
    simp only [happen, answer]
    split <;> exact .refl _
  | hear line =>
    simp only [happen, hear]
    split <;> exact .refl _
  | coordinate entry config => exact same (s.coordinator_coordinate entry config)
  | call config given =>
    simp only [happen, callService]
    split <;> exact .refl _
  | execute place name params => exact s.retains_execute place name params
  | register name place => exact absurd rfl (other name place)
  | expose place name label script => exact s.retains_expose place name label script
  | addService service methods => exact s.retains_addService service methods
  | load model => exact same (by rw [happen, fst_load, coordinator_operate])
  | setRunning on => exact same (by rw [happen, fst_setRunning, coordinator_operate])
  | reset => exact same (by rw [happen, reset_eq, coordinator_operate])
  | fire name => exact same (by rw [happen, fst_fire, coordinator_operate])
  | start autostart =>
    simp only [happen]
    split <;> exact .refl _
  | drain | command | stop | write => exact .refl _

theorem register_refused {name : Value} {place : Option Nat} {cause : RegistrationFault}
    (refused : s.coordinator.register name place = .error cause) : s.register name place = (s, .error (.registration cause)) := by
  simp only [register, refused]

theorem register_accepted {name : Value} {place : Option Nat} {c : Coordinator} {record : Record}
    (accepted : s.coordinator.register name place = .ok (c, record)) :
    s.register name place = ({ s with coordinator := c }.log record, .ok ()) := by
  simp only [register, accepted]

/-- Whatever happens, the registry has what was put into it, and what is put into it now. -/
theorem enlists_happen {default : Option Nat} {entries : List (String × Nat)} (enlists : s.coordinator.Enlists default entries)
    (e : Event) : (s.happen e).coordinator.Enlists default (entries ++ (s.enrolled? e).toList) := by
  -- Registering is the only thing that happens to the names.
  by_cases registers : ∃ name place, e = .register name place
  · obtain ⟨name, place, rfl⟩ := registers
    rcases s.coordinator.register_cases name place with ⟨cause, refused, -⟩ | ⟨text, p, record, accepted, accepts⟩
    · have none : s.enrolled? (.register name place) = none := by
        unfold enrolled?
        split
        next same =>
          cases same
          simp [refused, Except.isOk, Except.toBool]
        · rfl
      rw [none, happen, register_refused refused]
      simpa using enlists
    · have given : s.enrolled? (.register name place) = some (text, p) := by
        rw [accepts.named, accepts.given] at accepted ⊢
        simp [enrolled?, accepted, Except.isOk, Except.toBool]
      rw [given, happen, register_accepted accepted]
      exact enlists.enrol accepts
  · have silent : s.enrolled? e = none := by
      cases e with
      | register name place => exact absurd ⟨name, place, rfl⟩ registers
      | _ => rfl
    rw [silent, Option.toList_none, List.append_nil]
    exact enlists.retains (s.retains_happen fun name place same => registers ⟨name, place, same⟩)

theorem enlists_run {default : Option Nat} {entries : List (String × Nat)} (enlists : s.coordinator.Enlists default entries)
    (events : List Event) : (s.run events).coordinator.Enlists default (entries ++ s.enrolments events) := by
  induction events generalizing s entries with
  | nil => simpa [enrolments, run] using enlists
  | cons e rest ih =>
    rw [enrolments, ← List.append_assoc]
    exact ih (enlists_happen enlists e)

/-- In the course of any events, the registry consists of the default service that it was made with, and of the
services whose registrations were accepted: each one under a name that is not empty and that no other one has,
and each one able to execute methods. Such a name is looked up with the service of its registration, and whatever
stands for no name with the default service. A registration is refused for exactly three reasons, and then nothing
has happened. What was found once is found ever after. -/
theorem registry_faithful (s : Session) {default : Option Nat}
    (built : s.coordinator.registry = default.toList.map fun place => ("", place)) (events : List Event) :
    let t := s.run events
    t.coordinator.Enlists default (s.enrolments events) ∧
    t.coordinator.find? none = default ∧
    (∀ store name, Store.truthy store name = false → t.coordinator.lookup store name = .ok default) ∧
    (∀ text place, text ≠ "" → (t.coordinator.find? (some text) = some place ↔ (text, place) ∈ s.enrolments events)) ∧
    (∀ name place fault, (t.register name place).2 = .error fault ↔
      ∃ cause, fault = .registration cause ∧ t.coordinator.Refuses name place cause) ∧
    (∀ name place fault, (t.register name place).2 = .error fault → (t.register name place).1 = t) ∧
    (∀ more store name place, t.coordinator.lookup store name = .ok (some place) →
      (t.run more).coordinator.lookup store name = .ok (some place)) := by
  intro t
  have enlists : t.coordinator.Enlists default (s.enrolments events) := by
    have first : s.coordinator.Enlists default [] := ⟨by simpa using built, by simp, by simp, by simp⟩
    simpa using enlists_run first events
  have falsy (c : Coordinator) (store : Store) {name : Value} (nothing : store.truthy name = false) :
      c.lookup store name = .ok (c.find? none) := by
    simp only [Coordinator.lookup, nothing]
  have refused (name : Value) (place : Option Nat) (fault : Fault) : (t.register name place).2 = .error fault ↔
      ∃ cause, fault = .registration cause ∧ t.coordinator.Refuses name place cause := by
    constructor
    · intro failed
      rcases t.coordinator.register_cases name place with ⟨cause, refused, refuses⟩ | ⟨text, p, record, accepted, -⟩
      · rw [register_refused refused] at failed
        cases failed
        exact ⟨cause, rfl, refuses⟩
      · rw [register_accepted accepted] at failed
        cases failed
    · rintro ⟨cause, rfl, refuses⟩
      rw [register_refused refuses.register]
  refine ⟨enlists, enlists.find?_default, fun store name nothing => ?_, fun text place nonempty => enlists.find?_text nonempty,
    refused, fun name place fault failed => ?_, fun more store name place found => ?_⟩
  · rw [falsy _ store nothing, enlists.find?_default]
  · obtain ⟨cause, -, refuses⟩ := (refused name place fault).mp failed
    rw [register_refused refuses.register]
  · have later := enlists_run enlists more
    cases truth : store.truthy name with
    | false =>
      rw [falsy _ store truth] at found ⊢
      rw [later.find?_default, ← enlists.find?_default]
      exact found
    | true =>
      cases container : store.container? name with
      | some kind => simp [Coordinator.lookup, truth, container] at found
      | none =>
        simp only [Coordinator.lookup, truth, container, Except.ok.injEq] at found ⊢
        obtain ⟨text, named, known⟩ := Option.bind_eq_some_iff.mp found
        rw [named, Option.bind_some]
        by_cases empty : text = ""
        · subst empty
          exact later.find?_default.trans (enlists.find?_default.symm.trans known)
        · exact (later.find?_text empty).mpr (List.mem_append_left _ ((enlists.find?_text empty).mp known))

/-- A session with a default service, another service, and an object that cannot execute anything. -/
private def staffed : Session where
  coordinator :=
    { services := #[{ nature := { kind := "Service" }, execution := .wrapped },
        { nature := { kind := "Service" }, execution := .direct }, { nature := { kind := "Thing" } }]
      registry := [("", 0)] }

/-- Registrations of which only the third is accepted. -/
private def staffing : List Event :=
  [.register (.text "") (some 1), .register (.text "svc") (some 2), .register (.text "svc") (some 1), .step,
    .register (.text "svc") (some 0)]

theorem staffed_registry : staffed.coordinator.registry = ((some 0).toList.map fun place => ("", place)) ∧
    (staffed.run staffing).coordinator.find? none = some 0 ∧
    (staffed.run staffing).coordinator.find? (some "svc") = some 1 := by
  obtain ⟨-, first, -, named, -⟩ := @registry_faithful staffed (some 0) rfl staffing
  have enrolled : staffed.enrolments staffing = [("svc", 1)] := rfl
  exact ⟨rfl, first, (named "svc" 1 (by decide)).mpr (by simp [enrolled])⟩

end Session

end Interaction
