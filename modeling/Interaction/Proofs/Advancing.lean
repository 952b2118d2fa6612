import Interaction.Proofs.Workers

/-! What a step leaves of an undertaking: its task stands in the invocation that has come further, in one that
this goes on with, or in the one that it is a part of. -/

namespace Interaction.Undertaking

variable {u w : Undertaking} {task own n : Nat} {v : Invocation} {p : Progress} {frame : Frame} {steps rest : List Frame}
  {marks later : List Nat} {values : List Value}

theorem calls_advance (came : u.session.progress? u.calls.length frame values = some p) :
    (u.advance task own n marks frame values).calls =
      advanced u.calls n p (p.opens task n u.session.schedule.promises.size) := by
  simp only [advance, came]

theorem calls_advance_same (same : u.session.progress? u.calls.length frame values = none) :
    (u.advance task own n marks frame values).calls = u.calls := by
  simp only [advance, same]

theorem aims_self (u : Undertaking) (task own n : Nat) (marks : List Nat) (frame : Frame) (values : List Value) :
    (u.advance task own n marks frame values).aims n = frame.begins?.or (u.aims n) := by
  simp only [advance, if_true]

theorem aims_other {k : Nat} (other : k ≠ n) : (u.advance task own n marks frame values).aims k = u.aims k := by
  simp only [advance, if_neg other]

theorem mark_other (fetching : ∀ inner, p ≠ .fetching inner) (finishing : ∀ result, p ≠ .finishing result) (frame : Frame) :
    Progress.mark n (some p) frame = n := by
  cases p with
  | fetching inner => exact absurd rfl (fetching inner)
  | finishing result => exact absurd rfl (finishing result)
  | _ => rfl

/-- What is there once an invocation has come further. -/
structure Came (u w : Undertaking) (task own n : Nat) (p : Progress) (rest : List Frame) (marks : List Nat) : Prop where
  held : ∃ v, w.calls[n]? = some v ∧ v.task = task ∧ v.progress = p
  under : Under w.calls w.aims task own n rest marks
  inside : n < u.calls.length
  opened : ∀ i, w.calls[u.calls.length + i]? = (p.opens task n u.session.schedule.promises.size)[i]?

theorem came (later : List Nat) (held : u.calls[n]? = some v) (same : v.task = task) (under : Under u.calls u.aims task own n rest marks)
    (progress : u.session.progress? u.calls.length frame values = some p) :
    u.Came (u.advance task own n later frame values) task own n p rest marks where
  held := ⟨{ v with progress := p }, by rw [calls_advance progress, getElem?_advanced_self held], same, rfl⟩
  under := by
    rw [calls_advance progress]
    refine under.later fun below found _ => ⟨?_, aims_other (Nat.ne_of_lt below)⟩
    rw [getElem?_advanced_old (List.getElem?_eq_some_iff.mp found).1 (Nat.ne_of_lt below), found]
  inside := (List.getElem?_eq_some_iff.mp held).1
  opened i := by rw [calls_advance progress, getElem?_advanced_new]

namespace Came

variable {supply : Supply} {count : Nat}

theorem lays (came : u.Came w task own n p rest marks) (prepared : w.Prepared n p frame steps supply) :
    w.Lays task own (frame :: (steps ++ rest)) (n :: (List.replicate steps.length n ++ marks)) supply := by
  obtain ⟨v, held, same, rfl⟩ := came.held
  exact .working held same prepared came.under

/-- One step is left of an invocation before what it is a part of goes on. -/
theorem single (came : u.Came w task own n p rest marks) (prepared : w.Prepared n p frame [] supply) :
    w.Lays task own (frame :: rest) (n :: marks) supply :=
  came.lays prepared

theorem lays_ended (came : u.Came w task own n .ended rest marks) : w.Lays task own rest marks supply := by
  obtain ⟨v, held, _, ended⟩ := came.held
  exact .resume came.under (.ended held ended) supply

theorem lays_fetching (came : u.Came w task own n (.fetching u.calls.length) rest marks) (supply : Supply)
    (call given : Value) {next : Frame} (gathers : next.gathers = true) (aimed : next.aim? = w.aims n)
    (fits : next.isState = true → n = 0) :
    w.Lays task own (.invoke call given :: next :: rest) (u.calls.length :: n :: marks) supply := by
  obtain ⟨v, held, same, progress⟩ := came.held
  have under := Under.fetching held same progress came.inside gathers aimed fits came.under
  exact .single (came.opened 0) rfl (.waiting rfl nofun) under

theorem lays_finishing (came : u.Came w task own n (.finishing u.calls.length) rest marks) (supply : Supply) (call given : Value) :
    w.Lays task own (.invoke call given :: rest) (u.calls.length :: marks) supply := by
  obtain ⟨v, held, same, progress⟩ := came.held
  exact .single (came.opened 0) rfl (.waiting rfl nofun) (.finishing held same progress came.inside came.under)

/-- Each parameter that is mapped has an invocation with a task of its own. -/
theorem item (came : u.Came w task own n (.mapping (List.range' u.calls.length count)) rest marks) {i : Nat} (inside : i < count) :
    w.calls[u.calls.length + i]? = some { task := u.session.schedule.promises.size + i, parent := some n } := by
  rw [came.opened]
  simp [Progress.opens, inside]

end Came

theorem progress_maps {s : Session} {count : Nat} {move : Move}
    (kind : frame.gathers = true ∨ ∃ config, frame = .materialize config) (taken : (s.takeStep frame values).2 = move)
    (direct : move.isCall = false) (fine : ∀ fault, move ≠ .fail fault) :
    s.progress? count frame values = some (.mapping (s.items count move)) := by
  subst taken
  have mapped : frame.progress? (s.takeStep frame values).2 (s.items count (s.takeStep frame values).2) count =
      some (.mapping (s.items count (s.takeStep frame values).2)) := by
    rcases kind with gathers | ⟨config, rfl⟩
    · cases frame with
      | map target => rfl
      | arrange config => rfl
      | _ => cases gathers
    · simp [Frame.progress?, direct]
  rw [← mapped]
  unfold Session.progress?
  split
  · rcases kind with gathers | ⟨config, same⟩ <;> contradiction
  next failed => exact absurd failed (fine _)
  · rfl

theorem progress_fans {s : Session} (fans : s.Fans frame values) (kind : frame.gathers = true ∨ ∃ config, frame = .materialize config)
    (count : Nat) :
    ∃ next before, (s.takeStep frame values).2.stand? = some ([next], before) ∧ next.concludes = true ∧
      next.aim? = frame.aim? ∧ (next.isState = true → frame.isState = true) ∧
      ((s.progress? count frame values = some (.mapping []) ∧ ∃ given, before = .values given) ∨
        ∃ mapping given, s.progress? count frame values = some (.mapping (List.range' count given.length)) ∧
          (s.takeStep frame values).1 = s.fan mapping given ∧
          before = .promise (s.schedule.promises.size + given.length)) := by
  cases fans with
  | @plain next given taken concludes aim fits =>
    refine ⟨next, .values given, by rw [taken]; rfl, concludes, aim, fits, Or.inl ⟨?_, given, rfl⟩⟩
    have direct : (Move.go [next] given).isCall = false := by cases next <;> first | rfl | cases concludes
    exact progress_maps kind (congrArg Prod.snd taken) direct nofun
  | @fan next mapping given taken concludes aim fits =>
    have moved : (s.takeStep frame values).2 = .await (s.schedule.promises.size + given.length) [next] :=
      congrArg Prod.snd taken
    refine ⟨next, _, by rw [moved]; rfl, concludes, aim, fits, Or.inr ⟨mapping, given, ?_, by rw [taken], rfl⟩⟩
    rw [progress_maps kind moved rfl nofun, Session.items, Nat.add_sub_cancel_left]

variable {before : Supply} {next : List Frame}

theorem lays_fans (orderly : u.session.Orderly u.session.running)
    (turn : u.session.turn = some { task, frames := frame :: rest, values })
    (held : u.calls[n]? = some v) (same : v.task = task) (under : Under u.calls u.aims task own n rest marks)
    (fans : u.session.Fans frame values) (kind : frame.gathers = true ∨ ∃ config, frame = .materialize config)
    (aimed : frame.aim? = frame.begins?.or (u.aims n)) (fits : frame.isState = true → n = 0)
    (left : (u.session.takeStep frame values).2.stand? = some (next, before)) :
    (u.advance task own n later frame values).Lays task own (next ++ rest)
      (next.map (Progress.mark n (u.session.progress? u.calls.length frame values)) ++ marks) before := by
  have there := aimed.trans (aims_self u task own n later frame values).symm
  obtain ⟨goal, _, stand, concludes, aim, state, ⟨progress, given, rfl⟩ | ⟨mapping, given, progress, session, rfl⟩⟩  :=
    progress_fans fans kind u.calls.length
  · cases left.symm.trans stand
    have came := came later held same under progress
    rw [progress]
    exact came.single (.mapped (fun i among => nomatch among) concludes (aim.trans there) fun isState => fits (state isState))
  · cases left.symm.trans stand
    have came := came later held same under progress
    rw [progress]
    refine came.single (.mapped ?_ concludes (aim.trans there) fun isState => fits (state isState))
    by_cases empty : given = []
    · subst empty
      exact Or.inl rfl
    refine Or.inr ⟨List.range' u.session.schedule.promises.size given.length, ?_, fun i among => ?_⟩
    · refine role_later (Session.enlarges_step orderly turn) ?_
      rw [session]
      exact Schedule.role?_origin (Session.fan_join u.session mapping empty).1
    · obtain ⟨low, high⟩ := List.mem_range'_1.mp among
      obtain ⟨j, rfl⟩ := Nat.exists_eq_add_of_le low
      have inside : j < given.length := by omega
      exact ⟨_, came.item inside, List.mem_range'_1.mpr ⟨Nat.le_add_right .., Nat.add_lt_add_left inside _⟩⟩

theorem lays_opens (orderly : u.session.Orderly u.session.running)
    (turn : u.session.turn = some { task, frames := frame :: rest, values })
    (held : u.calls[n]? = some v) (same : v.task = task) (progress : v.progress = .waiting)
    (under : Under u.calls u.aims task own n rest marks) (starts : frame.starts = true) (fits : frame.isState = true → n = 0)
    (left : (u.session.takeStep frame values).2.stand? = some (next, before)) :
    (u.advance task own n later frame values).Lays task own (next ++ rest)
      (next.map (Progress.mark n (u.session.progress? u.calls.length frame values)) ++ marks) before := by
  cases Session.opens starts values with
  | fails move =>
    rw [move] at left
    cases left
  | enters item taken =>
    obtain ⟨mapping, index, value, rfl⟩ := item
    have still : u.session.progress? u.calls.length (.mapItem mapping index value) values = none := by
      simp [Session.progress?, taken, Frame.progress?, Move.isCall]
    rw [taken] at left
    cases left
    rw [still]
    refine .single (v := v) ?_ same ?_ ?_
    · rwa [calls_advance_same still]
    · rw [progress]
      exact .waiting rfl nofun
    · rw [calls_advance_same still]
      exact under.later fun below found _ => ⟨found, aims_other (Nat.ne_of_lt below)⟩
  | passes item taken =>
    obtain ⟨mapping, index, value, rfl⟩ := item
    have ended : u.session.progress? u.calls.length (.mapItem mapping index value) values = some .ended := by
      simp [Session.progress?, taken, Frame.progress?, Move.isCall]
    rw [taken] at left
    cases left
    exact (came later held same under ended).lays_ended
  | @fetches inner given after call taken gathers aim state =>
    have fetching : u.session.progress? u.calls.length frame values = some (.fetching u.calls.length) := by
      cases frame with
      | invoke config given => simp [Session.progress?, taken, Frame.progress?, Move.isCall]
      | materialize config => simp [Session.progress?, taken, Frame.progress?, Move.isCall]
      | mapItem mapping index value => exact absurd rfl (call mapping index value)
      | _ => cases starts
    rw [taken] at left
    cases left
    rw [fetching]
    have marked : Progress.mark n (some (.fetching u.calls.length)) after = n := by
      cases after <;> first | rfl | cases gathers
    rw [List.map_cons, List.map_singleton, marked]
    have begun : after.aim? = (u.advance task own n later frame values).aims n := by
      rw [aims_self, aim]
      cases frame with
      | invoke config given => rfl
      | materialize config => rfl
      | mapItem mapping index value => exact absurd rfl (call mapping index value)
      | _ => cases starts
    exact (came later held same under fetching).lays_fetching _ inner given gathers begun fun isState => fits (state isState)
  | readies call taken aim =>
    obtain ⟨config, given, rfl⟩ := call
    have ready : u.session.progress? u.calls.length (.invoke config given) values = some .ready := by
      simp [Session.progress?, taken, Frame.progress?, Move.isCall]
    rw [taken] at left
    cases left
    rw [ready]
    have begun := aim.trans (aims_self u task own n later (.invoke config given) values).symm
    exact (came later held same under ready).single (.ready rfl begun nofun)
  | fans state fans =>
    obtain rfl := state
    exact lays_fans orderly turn held same under fans (Or.inr ⟨_, rfl⟩) rfl fits left

theorem lays_concludes (held : u.calls[n]? = some v) (same : v.task = task)
    (under : Under u.calls u.aims task own n rest marks) (concludes : frame.concludes = true) (aimed : frame.aim? = u.aims n)
    (left : (u.session.takeStep frame values).2.stand? = some (next, before)) :
    (u.advance task own n later frame values).Lays task own (next ++ rest)
      (next.map (Progress.mark n (u.session.progress? u.calls.length frame values)) ++ marks) before := by
  cases frame with
  | call target =>
    have called : u.session.progress? u.calls.length (.call target) values = some (.called (u.session.reply target values)) := rfl
    have came := came later held same under called
    rw [called]
    have aims : some target.config = (u.advance task own n later (.call target) values).aims n :=
      aimed.trans (aims_self u task own n later (.call target) values).symm
    have taken := Session.snd_callTarget u.session target values
    cases replied : u.session.reply target values with
    | promise id =>
      rw [replied] at came taken
      rw [Session.takeStep, taken] at left
      cases left
      exact came.single (.called aims (Or.inl rfl))
    | steps frames =>
      obtain ⟨turns, action, request, rfl⟩ := Session.steps_reply u.session target values replied
      rw [replied] at came taken
      rw [Session.takeStep, taken] at left
      cases left
      rw [List.map_congr_left fun frame _ => mark_other (by simp) (by simp) frame, List.map_const']
      obtain ⟨v, held, same, reached⟩ := came.held
      exact .late held same reached came.under turns action request aims _
    | plain answer =>
      rw [replied] at taken
      rw [Session.takeStep, taken] at left
      cases left
    | fault fault =>
      rw [replied] at taken
      rw [Session.takeStep, taken] at left
      cases left
  | place config whole =>
    rcases u.session.snd_place config whole values with ⟨fault, taken⟩ | taken
    · rw [Session.takeStep, taken] at left
      cases left
    have ended : u.session.progress? u.calls.length (.place config whole) values = some .ended := by
      simp [Session.progress?, Session.takeStep, taken, Frame.progress?]
    rw [Session.takeStep, taken] at left
    cases left
    exact (came later held same under ended).lays_ended
  | _ => cases concludes

theorem lays_follow {config : Value} (held : u.calls[n]? = some v) (same : v.task = task)
    (under : Under u.calls u.aims task own n rest marks)
    (left : (u.session.takeStep (.follow config) values).2.stand? = some (next, before)) :
    (u.advance task own n later (.follow config) values).Lays task own (next ++ rest)
      (next.map (Progress.mark n (u.session.progress? u.calls.length (.follow config) values)) ++ marks) before := by
  rcases u.session.snd_followCall config values with ⟨call, given, taken⟩ | taken
  · have finishing : u.session.progress? u.calls.length (.follow config) values = some (.finishing u.calls.length) := by
      simp [Session.progress?, Session.takeStep, taken, Frame.progress?, Move.isCall]
    rw [Session.takeStep, taken] at left
    cases left
    rw [finishing]
    exact (came later held same under finishing).lays_finishing _ call given
  · have ended : u.session.progress? u.calls.length (.follow config) values = some .ended := by
      simp [Session.progress?, Session.takeStep, taken, Frame.progress?, Move.isCall]
    rw [Session.takeStep, taken] at left
    cases left
    exact (came later held same under ended).lays_ended

/-- After its step a task stands in one of the invocations that it works on. -/
theorem lays_advance (orderly : u.session.Orderly u.session.running)
    (turn : u.session.turn = some { task, frames := frame :: (steps ++ rest), values })
    (held : u.calls[n]? = some v) (same : v.task = task) (prepared : u.Prepared n v.progress frame steps (.values values))
    (under : Under u.calls u.aims task own n rest marks) (left : (u.session.takeStep frame values).2.stand? = some (next, before)) :
    (u.advance task own n (List.replicate steps.length n ++ marks) frame values).Lays task own (next ++ (steps ++ rest))
      (next.map (Progress.mark n (u.session.progress? u.calls.length frame values)) ++
        (List.replicate steps.length n ++ marks)) before := by
  generalize reached : v.progress = p at prepared
  cases prepared with
  | waiting starts fits => exact lays_opens orderly turn held same reached under starts fits left
  | ready gathers aimed fits =>
    have still : frame.begins? = none := by cases frame <;> first | rfl | cases gathers
    refine lays_fans orderly turn held same under (Session.fans_gathers gathers values) (Or.inl gathers) ?_ fits left
    rw [still, Option.none_or, aimed]
  | fetched done gathers aimed fits =>
    have still : frame.begins? = none := by cases frame <;> first | rfl | cases gathers
    refine lays_fans orderly turn held same under (Session.fans_gathers gathers values) (Or.inl gathers) ?_ fits left
    rw [still, Option.none_or, aimed]
  | mapped whole concludes aimed fits => exact lays_concludes held same under concludes aimed left
  | @pausing frames turns action request config _ aimed =>
    have still : u.session.progress? u.calls.length .pause values = none := rfl
    cases left
    refine .late (v := v) ?_ same reached ?_ turns action request ?_ _
    · rwa [calls_advance_same still]
    · rw [calls_advance_same still]
      exact under.later fun below found _ => ⟨found, aims_other (Nat.ne_of_lt below)⟩
    · exact aimed.trans (aims_self u task own n _ .pause values).symm
  | @acting frames action request config _ aimed =>
    rcases acted : u.session.act action request with ⟨t, fault | answer⟩
    · rw [Session.takeStep, acted] at left
      cases left
    · have answered : u.session.progress? u.calls.length (.act action request) values = some .answered := by
        simp [Session.progress?, Session.takeStep, acted, Frame.progress?]
      rw [Session.takeStep, acted] at left
      cases left
      exact (came _ held same under answered).single (.answered (aimed.trans (aims_self u task own n _ (.act action request) values).symm))
  | called _ answer => exact lays_follow held same under left
  | answered _ => exact lays_follow held same under left

theorem progress?_cases {s : Session} {count : Nat} (came : s.progress? count frame values = some p) :
    (∃ target, frame = .call target ∧ p = .called (s.reply target values)) ∨
      frame.progress? (s.takeStep frame values).2 (s.items count (s.takeStep frame values).2) count = some p := by
  unfold Session.progress? at came
  split at came
  next target => exact Or.inl ⟨_, rfl, (Option.some.inj came).symm⟩
  · cases came
  · exact Or.inr came

/-- The invocations that one is made up of after a step are the new ones. -/
theorem parts_progress? {s : Session} {count : Nat} (task n size : Nat) (came : s.progress? count frame values = some p) :
    p.parts = List.range' count (p.opens task n size).length := by
  rcases progress?_cases came with ⟨target, rfl, rfl⟩ | came
  · rfl
  have items : (s.items count (s.takeStep frame values).2) = List.range' count
      (Progress.opens task n size (.mapping (s.items count (s.takeStep frame values).2))).length := by
    rw [Progress.opens, List.length_map, List.length_range']
    unfold Session.items
    split
    · rw [List.length_range']
    · rfl
  cases frame with
  | invoke config given => cases Option.some.inj came; split <;> rfl
  | materialize config =>
    cases Option.some.inj came
    split
    · rfl
    · exact items
  | map target => cases came; exact items
  | arrange config => cases came; exact items
  | act action request => cases came; rfl
  | follow config => cases Option.some.inj came; split <;> rfl
  | mapItem mapping index value =>
    simp only [Frame.progress?] at came
    split at came <;> cases came
    rfl
  | place config whole => cases came; rfl
  | _ => cases came

/-- What a step brings an invocation to. -/
inductive Brings : Frame → Progress → Prop where
  | readies {config given : Value} : Brings (.invoke config given) .ready
  | fetches {frame : Frame} {config : Value} {inner : Nat} (begins : frame.begins? = some config) : Brings frame (.fetching inner)
  | maps {frame : Frame} {items : List Nat} (maps : frame.gathers = true ∨ ∃ config, frame = .materialize config) :
      Brings frame (.mapping items)
  | calls {target : Target} {reply : Reply} : Brings (.call target) (.called reply)
  | acts {action : Action} {request : Request} : Brings (.act action request) .answered
  | follows {config : Value} {result : Nat} : Brings (.follow config) (.finishing result)
  | followed {config : Value} : Brings (.follow config) .ended
  | passed {mapping value : Value} {index : Nat} : Brings (.mapItem mapping index value) .ended
  | placed {config : Value} {whole : Bool} : Brings (.place config whole) .ended

theorem brings {s : Session} {count : Nat} (came : s.progress? count frame values = some p) : Brings frame p := by
  rcases progress?_cases came with ⟨target, rfl, rfl⟩ | came
  · exact .calls
  cases frame with
  | invoke config given =>
    cases Option.some.inj came
    split
    · exact .fetches rfl
    · exact .readies
  | materialize config =>
    cases Option.some.inj came
    split
    · exact .fetches rfl
    · exact .maps (Or.inr ⟨config, rfl⟩)
  | map target => cases came; exact .maps (Or.inl rfl)
  | arrange config => cases came; exact .maps (Or.inl rfl)
  | act action request => cases came; exact .acts
  | follow config =>
    cases Option.some.inj came
    split
    · exact .follows
    · exact .followed
  | mapItem mapping index value =>
    simp only [Frame.progress?] at came
    split at came <;> cases came
    exact .passed
  | place config whole => cases came; exact .placed
  | _ => cases came

/-- New items have new tasks. -/
theorem progress?_mapping {s : Session} {items : List Nat} {count : Nat} (came : s.progress? count frame values = some (.mapping items)) :
    items = [] ∨ ∃ mapping given, items = List.range' count given.length ∧ (s.takeStep frame values).1 = s.fan mapping given := by
  have kind : frame.gathers = true ∨ ∃ config, frame = .materialize config := by
    cases brings came with
    | maps maps => exact maps
  have fans : s.Fans frame values := by
    rcases kind with gathers | ⟨config, rfl⟩
    · exact Session.fans_gathers gathers values
    rcases progress?_cases came with ⟨_, _, same⟩ | further
    · cases same
    have opened : s.Opens (.materialize config) values := Session.opens rfl values
    cases opened with
    | fans _ fans => exact fans
    | fails move => simp [Session.progress?, move] at came
    | fetches _ taken => simp [Frame.progress?, taken, Move.isCall] at further
    | enters item => obtain ⟨_, _, _, same⟩ := item; cases same
    | passes item => obtain ⟨_, _, _, same⟩ := item; cases same
    | readies call => obtain ⟨_, _, same⟩ := call; cases same
  obtain ⟨_, _, _, _, _, _, ⟨progress, _⟩ | ⟨mapping, given, progress, session, _⟩⟩ := progress_fans fans kind count
  · cases came.symm.trans progress
    exact Or.inl rfl
  · cases came.symm.trans progress
    exact Or.inr ⟨mapping, given, rfl, session⟩

/-- An invocation for a parameter that is mapped has a task of its own, and ends well if that does. -/
structure Item (u : Undertaking) (i : Nat) (v : Invocation) : Prop where
  held : u.calls[i]? = some v
  worker : ∃ marks, u.workers v.task = some ⟨i, marks⟩
  role : u.session.schedule.role? v.task = some .task
  done : u.session.schedule.Succeeded v.task → Done u.calls i

def Staffed (u : Undertaking) : Prop :=
  ∀ (n : Nat) (v : Invocation) (items : List Nat), u.calls[n]? = some v → v.progress = .mapping items →
    ∀ i ∈ items, ∃ w, u.Item i w

/-- What is true of an undertaking all along. -/
structure Proper (u : Undertaking) : Prop where
  orderly : u.session.Orderly u.session.running
  strict : u.session.schedule.Strict
  rooted : Rooted u.calls
  inside : ∀ task worker, u.workers task = some worker → task < u.session.schedule.promises.size
  staffed : u.Staffed
  lays : ∀ task worker frames supply, u.workers task = some worker → u.session.Stands task frames supply →
    u.Lays task worker.own frames worker.marks supply

/-- A task stands as before when it is told what it waits for. All items of a mapping have ended well once the
promise that waits for them has. -/
theorem Lays.told {frames : List Frame} {supply : Supply} (lays : u.Lays task own frames marks before)
    (strict : u.session.schedule.Strict) (staffed : u.Staffed)
    (supplied : u.session.Supplied before supply) : u.Lays task own frames marks supply := by
  rcases supplied with rfl | ⟨id, values, rfl, settled, rfl⟩
  · exact lays
  cases lays with
  | ended done => exact .ended done
  | @working n v frame steps rest marks _ held same prepared under =>
    refine .working held same ?_ under
    generalize reached : v.progress = p at prepared
    cases prepared with
    | waiting starts fits => exact .waiting starts fits
    | ready gathers aimed fits => exact .ready gathers aimed fits
    | fetched done gathers aimed fits => exact .fetched done gathers aimed fits
    | mapped whole concludes aimed fits =>
      refine .mapped (fun i among => ?_) concludes aimed fits
      rcases whole with rfl | ⟨members, isJoin, all⟩
      · cases among
      · obtain ⟨w, item⟩ := staffed n v _ held reached i among
        obtain ⟨w', found, member⟩ := all i among
        cases item.held.symm.trans found
        exact item.done (strict.gathered id members isJoin ⟨values, settled⟩ _ member)
    | pausing aimed => exact .pausing aimed
    | acting aimed => exact .acting aimed
    | called aimed answer =>
      refine .called aimed (Or.inr ?_)
      rcases answer with own | succeeded
      · cases own
        exact ⟨values, settled⟩
      · exact succeeded
    | answered aimed => exact .answered aimed

theorem supplied_later {s t : Session} (enlarged : s.Enlarges t) {supply : Supply} (supplied : s.Supplied before supply) :
    t.Supplied before supply := by
  rcases supplied with rfl | ⟨id, values, rfl, settled, rfl⟩
  · exact Or.inl rfl
  · exact Or.inr ⟨id, values, rfl, (enlarged.settled (by simp [settled])).trans settled, rfl⟩

/-- A task ends well only with its last step. -/
theorem succeeded_happen {s : Session} (orderly : s.Orderly s.running) (e : Event) (role : s.schedule.role? task = some .task)
    (succeeded : (s.happen e).schedule.Succeeded task) :
    s.schedule.Succeeded task ∨ ∃ values, s.turn = some { task, frames := [], values } := by
  obtain ⟨values, settled⟩ := succeeded
  obtain ⟨origin, held, isTask⟩ := Option.map_eq_some_iff.mp role
  cases before : s.schedule.outcome? task with
  | some outcome =>
    rw [(orderly.enlarges e).settled (by simp [before]), before] at settled
    exact Or.inl ⟨values, before.trans settled⟩
  | none =>
    cases Session.settles_happen orderly e (Schedule.origin?_inside held) before settled with
    | ended turn => exact Or.inr ⟨_, turn⟩
    | joined join whole =>
      obtain ⟨_, _, isJoin⟩ := Schedule.members?_eq_some.mp join
      cases held.symm.trans isJoin
      cases isTask
    | outside outside =>
      cases held.symm.trans outside
      cases isTask

theorem happen_cases (u : Undertaking) (e : Event) :
    (∃ task own n marks frame rest values, e = .step ∧ u.session.turn = some { task, frames := frame :: rest, values } ∧
      u.workers task = some ⟨own, n :: marks⟩ ∧ u.happen e = u.advance task own n marks frame values) ∨
    (u.happen e = { u with session := u.session.happen e } ∧
      ∀ task own n marks frame rest values, e = .step → u.session.turn = some { task, frames := frame :: rest, values } →
        u.workers task ≠ some ⟨own, n :: marks⟩) := by
  unfold happen
  split
  next task frame rest values turn =>
    split
    next own n marks worker => exact Or.inl ⟨task, own, n, marks, frame, rest, values, rfl, turn, worker, rfl⟩
    next other =>
      refine Or.inr ⟨rfl, ?_⟩
      rintro task own n marks frame rest values _ same worker
      cases turn.symm.trans same
      exact other own n marks worker
  next other =>
    refine Or.inr ⟨rfl, ?_⟩
    rintro task own n marks frame rest values isStep same _
    exact other _ _ _ _ isStep same

namespace Proper

/-- Whose turn it is stands in one of the invocations that it works on. -/
theorem turn (proper : u.Proper) (turn : u.session.turn = some { task, frames := frame :: rest, values })
    {marks : List Nat} (worker : u.workers task = some ⟨own, marks⟩) :
    ∃ n v steps under left, rest = steps ++ under ∧ marks = n :: (List.replicate steps.length n ++ left) ∧
      u.calls[n]? = some v ∧ v.task = task ∧ u.Prepared n v.progress frame steps (.values values) ∧
      Under u.calls u.aims task own n under left := by
  have lays := proper.lays task _ _ _ worker (.turn turn)
  cases lays with
  | working held same prepared under => exact ⟨_, _, _, _, _, rfl, rfl, held, same, prepared, under⟩

/-- The invocations stay as they are unless one of their tasks takes a step. -/
theorem aside (proper : u.Proper) (e : Event)
    (others : ∀ task own n marks frame rest values, e = .step →
      u.session.turn = some { task, frames := frame :: rest, values } → u.workers task ≠ some ⟨own, n :: marks⟩) :
    ({ u with session := u.session.happen e } : Undertaking).Proper := by
  have enlarged := proper.orderly.enlarges e
  have strict := Session.strict_happen proper.orderly proper.strict e
  have staffed : ({ u with session := u.session.happen e } : Undertaking).Staffed := by
    intro n v items held reached i among
    obtain ⟨w, item⟩ := proper.staffed n v items held reached i among
    refine ⟨w, item.held, item.worker, role_later enlarged item.role, fun succeeded => ?_⟩
    rcases succeeded_happen proper.orderly e item.role succeeded with before | ⟨values, turn⟩
    · exact item.done before
    · obtain ⟨marks, worker⟩ := item.worker
      have lays := proper.lays _ _ _ _ worker (.turn turn)
      cases lays with
      | ended done => exact done
  constructor
  case orderly => exact proper.orderly.happen e
  case strict => exact strict
  case rooted => exact proper.rooted
  case inside =>
    intro task worker works
    exact Nat.lt_of_lt_of_le (proper.inside task worker works) enlarged.size
  case staffed => exact staffed
  case lays =>
    intro task worker frames supply works stands
    rcases Session.stands_happen proper.orderly e (proper.inside task worker works) stands with
      ⟨before, stood, supplied⟩ | ⟨isStep, frame, rest, values, turn, _⟩
    · have spares : u.Spares { u with session := u.session.happen e } task :=
        ⟨id, fun held _ => held, fun _ _ => rfl, fun held => ⟨_, held, rfl⟩, enlarged⟩
      exact ((proper.lays task worker frames before works stood).later spares).told strict staffed
        (supplied_later enlarged supplied)
    · obtain ⟨own, marks⟩ := worker
      obtain ⟨n, _, steps, _, left, _, rfl, _⟩ := proper.turn turn works
      exact absurd works (others task own n _ frame rest values isStep turn)

end Proper

section
variable {id : Nat} {worker : Worker}

theorem workers_own : ∃ marks', (u.advance task own n marks frame values).workers task = some ⟨own, marks'⟩ :=
  ⟨_, if_pos rfl⟩

theorem workers_old (other : id ≠ task) (inside : id < u.session.schedule.promises.size) :
    (u.advance task own n marks frame values).workers id = u.workers id := by
  simp only [advance, if_neg other]
  split
  · rw [if_neg (by omega)]
  · rfl

theorem workers_new {items : List Nat} {i : Nat} (came : u.session.progress? u.calls.length frame values = some (.mapping items))
    (among : i < items.length) (other : u.session.schedule.promises.size + i ≠ task) :
    (u.advance task own n marks frame values).workers (u.session.schedule.promises.size + i) =
      some ⟨u.calls.length + i, [u.calls.length + i]⟩ := by
  simp only [advance, if_neg other, came]
  rw [if_pos (by omega), Nat.add_sub_cancel_left]

theorem workers_cases (works : (u.advance task own n marks frame values).workers id = some worker) (other : id ≠ task) :
    u.workers id = some worker ∨ ∃ items i, u.session.progress? u.calls.length frame values = some (.mapping items) ∧
      i < items.length ∧ id = u.session.schedule.promises.size + i ∧ worker = ⟨u.calls.length + i, [u.calls.length + i]⟩ := by
  simp only [advance, if_neg other] at works
  split at works
  next items came =>
    split at works
    next within =>
      obtain ⟨i, rfl⟩ := Nat.exists_eq_add_of_le within.1
      rw [Nat.add_sub_cancel_left] at works
      exact Or.inr ⟨items, i, came, by omega, rfl, (Option.some.inj works).symm⟩
    · exact Or.inl works
  · exact Or.inl works

theorem held_advance {k : Nat} {x : Invocation} (found : u.calls[k]? = some x) (other : k ≠ n) :
    (u.advance task own n marks frame values).calls[k]? = some x := by
  cases came : u.session.progress? u.calls.length frame values with
  | none => rwa [calls_advance_same came]
  | some p => rw [calls_advance came, getElem?_advanced_old (List.getElem?_eq_some_iff.mp found).1 other, found]

/-- What a step opens is yet to begin. -/
theorem waiting_new {k : Nat} {x : Invocation} (new : u.calls.length ≤ k)
    (found : (u.advance task own n marks frame values).calls[k]? = some x) : x.progress = .waiting := by
  obtain ⟨i, rfl⟩ := Nat.exists_eq_add_of_le new
  cases came : u.session.progress? u.calls.length frame values with
  | none =>
    rw [calls_advance_same came] at found
    exact absurd (List.getElem?_eq_some_iff.mp found).1 (Nat.not_lt_of_le new)
  | some p =>
    rw [calls_advance came, getElem?_advanced_new] at found
    exact (opens_new found).2.1

theorem self_advance (task own : Nat) (marks : List Nat) (frame : Frame) (values : List Value) (held : u.calls[n]? = some v) :
    ∃ p, (u.advance task own n marks frame values).calls[n]? = some { v with progress := p } ∧
      (p = v.progress ∨ u.session.progress? u.calls.length frame values = some p) := by
  cases came : u.session.progress? u.calls.length frame values with
  | none => exact ⟨v.progress, by rwa [calls_advance_same came], Or.inl rfl⟩
  | some p => exact ⟨p, by rw [calls_advance came, getElem?_advanced_self held], Or.inr rfl⟩

theorem done_advance (held : u.calls[n]? = some v) (due : u.Due v.progress frame) {k : Nat} (done : Done u.calls k) :
    Done (u.advance task own n marks frame values).calls k := by
  obtain ⟨_, open_, unfinished⟩ := due.parts
  cases came : u.session.progress? u.calls.length frame values with
  | none => rwa [calls_advance_same came]
  | some p =>
    rw [calls_advance came]
    exact done.advanced held open_ unfinished

/-- Other tasks work on other invocations. -/
theorem spares_advance (own : Nat) (marks : List Nat) (values : List Value) (orderly : u.session.Orderly u.session.running)
    (held : u.calls[n]? = some v) (same : v.task = task) (due : u.Due v.progress frame) (other : id ≠ task) :
    u.Spares (u.advance task own n marks frame values) id where
  done := done_advance held due
  held {k x} found mine := by
    refine held_advance found ?_
    rintro rfl
    cases held.symm.trans found
    exact other (mine.symm.trans same)
  aims {k x} found mine := by
    refine aims_other ?_
    rintro rfl
    cases held.symm.trans found
    exact other (mine.symm.trans same)
  tasks {k x} found := by
    by_cases self : k = n
    · subst self
      cases held.symm.trans found
      obtain ⟨p, after, _⟩ := self_advance task own marks frame values held
      exact ⟨_, after, rfl⟩
    · exact ⟨x, held_advance found self, rfl⟩
  session := orderly.enlarges .step

theorem rooted_advance (rooted : Rooted u.calls) (held : u.calls[n]? = some v) (same : v.task = task) (due : u.Due v.progress frame) :
    Rooted (u.advance task own n marks frame values).calls := by
  obtain ⟨done, open_, unfinished⟩ := due.parts
  cases came : u.session.progress? u.calls.length frame values with
  | none => rwa [calls_advance_same came]
  | some p =>
    rw [calls_advance came, ← same]
    exact rooted.advanced held open_ unfinished done (parts_progress? v.task n _ came)

end

namespace Proper

variable (proper : u.Proper)
include proper

theorem item_advance (turn : u.session.turn = some { task, frames := frame :: rest, values })
    (worker : u.workers task = some ⟨own, n :: marks⟩) (held : u.calls[n]? = some v) (due : u.Due v.progress frame)
    {i : Nat} {x : Invocation} (item : u.Item i x) : ∃ y, (u.advance task own n marks frame values).Item i y := by
  have enlarged := proper.orderly.enlarges .step
  have done : (u.advance task own n marks frame values).session.schedule.Succeeded x.task →
      Done (u.advance task own n marks frame values).calls i := by
    intro succeeded
    rcases succeeded_happen proper.orderly .step item.role succeeded with before | ⟨_, last⟩
    · exact done_advance held due (item.done before)
    · cases turn.symm.trans last
  have works : ∃ marks', (u.advance task own n marks frame values).workers x.task = some ⟨i, marks'⟩ := by
    obtain ⟨marks', working⟩ := item.worker
    by_cases own : x.task = task
    · rw [own] at working ⊢
      cases working.symm.trans worker
      exact workers_own
    · exact ⟨marks', (workers_old own (proper.inside _ _ working)).trans working⟩
  by_cases self : i = n
  · subst self
    cases held.symm.trans item.held
    obtain ⟨p, after, _⟩ := self_advance task own marks frame values held
    exact ⟨_, after, works, role_later enlarged item.role, done⟩
  · exact ⟨x, held_advance item.held self, works, role_later enlarged item.role, done⟩

/-- The task of a new item has not begun. -/
theorem item_new (own n : Nat) (marks : List Nat)
    (turn : u.session.turn = some { task, frames := frame :: rest, values }) {items : List Nat}
    (came : u.session.progress? u.calls.length frame values = some (.mapping items)) {i : Nat} (among : i < items.length) :
    let id := u.session.schedule.promises.size + i
    (∃ mapping index value, (u.session.takeStep frame values).1.schedule.origin? id = some (.task [.mapItem mapping index value])) ∧
      (u.advance task own n marks frame values).calls[u.calls.length + i]? = some { task := id, parent := some n } ∧
      (u.advance task own n marks frame values).Item (u.calls.length + i) { task := id, parent := some n } := by
  have inside := ((Session.Stands.turn turn).alive proper.orderly).1.1
  have other : u.session.schedule.promises.size + i ≠ task := by omega
  rcases progress?_mapping came with rfl | ⟨mapping, given, rfl, session⟩
  · cases among
  rw [List.length_range'] at among
  have item := u.session.fan_item mapping given among
  rw [← session] at item
  have new : (u.advance task own n marks frame values).calls[u.calls.length + i]? =
      some { task := u.session.schedule.promises.size + i, parent := some n } := by
    rw [calls_advance came, getElem?_advanced_new]
    simp [Progress.opens, among]
  refine ⟨⟨_, _, _, item.1⟩, new, new, ⟨_, workers_new came (by rwa [List.length_range']) other⟩, ?_, ?_⟩
  · exact role_later (Session.enlarges_step proper.orderly turn) (Schedule.role?_origin item.1)
  · rintro ⟨values, settled⟩
    cases (Session.unsettled_step turn other item.2).symm.trans settled

theorem staffed_advance (turn : u.session.turn = some { task, frames := frame :: rest, values })
    (worker : u.workers task = some ⟨own, n :: marks⟩) (held : u.calls[n]? = some v)
    (due : u.Due v.progress frame) : (u.advance task own n marks frame values).Staffed := by
  have old {m : Nat} {x : Invocation} {items : List Nat} (found : u.calls[m]? = some x) (mapping : x.progress = .mapping items)
      {i : Nat} (among : i ∈ items) : ∃ y, (u.advance task own n marks frame values).Item i y := by
    obtain ⟨y, item⟩ := proper.staffed m x items found mapping i among
    exact proper.item_advance turn worker held due item
  intro m x items found mapping i among
  by_cases self : m = n
  · subst self
    obtain ⟨p, after, before⟩ := self_advance task own marks frame values held
    cases after.symm.trans found
    obtain rfl : p = .mapping items := mapping
    rcases before with reached | came
    · exact old held reached.symm among
    · have numbered : items = List.range' _ _ := parts_progress? task m 0 came
      rw [numbered] at among
      obtain ⟨low, high⟩ := List.mem_range'_1.mp among
      obtain ⟨j, rfl⟩ := Nat.exists_eq_add_of_le low
      simp only [Progress.opens, List.length_map, List.length_range'] at high
      exact ⟨_, (proper.item_new own m marks turn came (by omega)).2.2⟩
  · by_cases inside : m < u.calls.length
    · rw [held_advance (List.getElem?_eq_getElem inside) self] at found
      exact old ((List.getElem?_eq_getElem inside).trans found) mapping among
    · cases (waiting_new (Nat.le_of_not_lt inside) found).symm.trans mapping

theorem advance (turn : u.session.turn = some { task, frames := frame :: rest, values })
    (worker : u.workers task = some ⟨own, n :: marks⟩) : (u.advance task own n marks frame values).Proper := by
  obtain ⟨m, v, steps, under, left, rfl, sameMarks, held, same, prepared, underneath⟩ := proper.turn turn worker
  obtain ⟨rfl, rfl⟩ := List.cons.inj sameMarks
  have due := prepared.due
  have enlarged := proper.orderly.enlarges .step
  have strict := Session.strict_happen proper.orderly proper.strict .step
  have staffed := proper.staffed_advance turn worker held due
  have inside := ((Session.Stands.turn turn).alive proper.orderly).1.1
  constructor
  case orderly => exact proper.orderly.happen .step
  case strict => exact strict
  case rooted => exact rooted_advance proper.rooted held same due
  case inside =>
    intro id working works
    by_cases mine : id = task
    · rw [mine]
      exact Nat.lt_of_lt_of_le inside enlarged.size
    rcases workers_cases works mine with before | ⟨items, i, came, among, rfl, _⟩
    · exact Nat.lt_of_lt_of_le (proper.inside id working before) enlarged.size
    · have item := (proper.item_new own n (List.replicate steps.length n ++ left) turn came among).2.2
      obtain ⟨_, held, _⟩ := Option.map_eq_some_iff.mp item.role
      exact Schedule.origin?_inside held
  case staffed => exact staffed
  case lays =>
    intro id working frames supply works stands
    by_cases mine : id = task
    · subst mine
      obtain ⟨next, before, stand, rfl, supplied⟩ := Session.stands_own proper.orderly turn stands
      cases works.symm.trans (if_pos rfl)
      have laid := lays_advance proper.orderly turn held same prepared underneath stand
      rw [stand]
      exact laid.told strict staffed (supplied_later (Session.enlarges_step proper.orderly turn) supplied)
    rcases workers_cases works mine with earlier | ⟨items, i, came, among, rfl, rfl⟩
    · have there := proper.inside id working earlier
      rcases Session.stands_happen proper.orderly .step there stands with ⟨before, stood, supplied⟩ | ⟨_, _, _, _, turn', _⟩
      · have spares := spares_advance own (List.replicate steps.length n ++ left) values proper.orderly held same due mine
        exact ((proper.lays id working frames before earlier stood).later spares).told strict staffed
          (supplied_later enlarged supplied)
      · cases turn.symm.trans turn'
        exact absurd rfl mine
    · obtain ⟨⟨mapping, index, value, origin⟩, new, _⟩ := proper.item_new own n _ turn came among
      obtain ⟨rfl, begun⟩ := Session.stands_new proper.orderly turn (Nat.le_add_right ..) stands
      cases origin.symm.trans begun
      exact .single new rfl (.waiting rfl nofun) .first

/-- Whatever happens, the tasks of an undertaking stand in the invocations that they work on. -/
theorem happen (e : Event) : (u.happen e).Proper := by
  rcases u.happen_cases e with ⟨task, own, n, marks, frame, rest, values, rfl, turn, worker, same⟩ | ⟨same, others⟩
  · rw [same]
    exact proper.advance turn worker
  · rw [same]
    exact proper.aside e others

theorem run (events : List Event) : (u.run events).Proper := by
  induction events generalizing u with
  | nil => exact proper
  | cons e rest ih => exact ih (proper.happen e)

end Proper

end Interaction.Undertaking
