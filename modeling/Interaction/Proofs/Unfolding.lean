import Interaction.Proofs.IsolatedCalls

/-! What the steps that a task has before it unfold to, as if they were taken one after the other
and nothing else happened. The steps of an accepted call unfold to its evaluation, as long as its
configuration is kept, and no more than one of its parameters is mapped. -/

namespace Interaction

namespace Ending

variable {e : Ending} {s : Session}

theorem andThen_ok {next : Session → List Value → Ending} {values : List Value} (ended : e.outcome = some (.ok values)) :
    e.andThen next = next e.session values := by
  rw [andThen, ended]

theorem andThen_other {next : Session → List Value → Ending} (other : ∀ values, e.outcome ≠ some (.ok values)) :
    e.andThen next = e := by
  unfold andThen
  split
  next values ended => exact absurd ended (other values)
  · rfl

theorem andThen_eq_ok {next : Session → List Value → Ending} {values : List Value} :
    (e.andThen next).outcome = some (.ok values) ↔
      ∃ given, e.outcome = some (.ok given) ∧ (next e.session given).outcome = some (.ok values) := by
  constructor
  · intro ended
    by_cases given : ∃ given, e.outcome = some (.ok given)
    · obtain ⟨given, first⟩ := given
      rw [andThen_ok first] at ended
      exact ⟨given, first, ended⟩
    · rw [not_exists] at given
      rw [andThen_other given] at ended
      exact absurd ended (given values)
  · intro ⟨given, first, last⟩
    rw [andThen_ok first]
    exact last

theorem andThen_assoc (e : Ending) (next last : Session → List Value → Ending) :
    (e.andThen next).andThen last = e.andThen fun s values => (next s values).andThen last := by
  by_cases ended : ∃ values, e.outcome = some (.ok values)
  · obtain ⟨values, ended⟩ := ended
    rw [andThen_ok ended, andThen_ok ended]
  · rw [not_exists] at ended
    rw [andThen_other ended, andThen_other ended, andThen_other ended]

end Ending

/-- Whether no more than one parameter of a call is mapped. -/
def Store.Single (s : Store) (config : Value) : Prop :=
  (s.mappedCalls (s.field config "parameterMapping")).length ≤ 1

instance (s : Store) (config : Value) : Decidable (s.Single config) :=
  inferInstanceAs (Decidable (_ ≤ 1))

theorem Store.Single.alone {d : Store} {config : Value} (single : d.Single config) {i j : Nat} {call : Value}
    (hit : d.mappedCall? (d.field config "parameterMapping") i = some call) (other : j ≠ i) :
    d.mappedCall? (d.field config "parameterMapping") j = none := by
  unfold Single mappedCalls at single
  unfold mappedCall? at hit ⊢
  generalize (d.items? (d.field config "parameterMapping")).getD [] = items at *
  have apart {a b : Nat} {v w : Value} (before : a < b) (first : items[a]?.filter d.isMapping = some v)
      (last : items[b]?.filter d.isMapping = some w) : False := by
    obtain ⟨held, isCall⟩ := Option.filter_eq_some_iff.mp first
    obtain ⟨found, isOther⟩ := Option.filter_eq_some_iff.mp last
    have early : v ∈ (items.take b).filter d.isMapping :=
      List.mem_filter.mpr ⟨List.mem_of_getElem? ((List.getElem?_take_of_lt before).trans held), isCall⟩
    have late : w ∈ (items.drop b).filter d.isMapping := by
      refine List.mem_filter.mpr ⟨List.mem_of_getElem? (i := 0) ?_, isOther⟩
      rw [List.getElem?_drop, Nat.add_zero, found]
    rw [← List.take_append_drop b items, List.filter_append, List.length_append] at single
    have := List.length_pos_of_mem early
    have := List.length_pos_of_mem late
    omega
  cases again : items[j]?.filter d.isMapping with
  | none => rfl
  | some v =>
    rcases Nat.lt_or_gt_of_ne other with before | after
    · exact (apart before again hit).elim
    · exact (apart after hit again).elim

/-- Parameters are those before one of them, that one and those after it, and none of the others is mapped. -/
theorem Store.Single.split {d : Store} {config : Value} (single : d.Single config) {values : List Value} (nonempty : values ≠ []) :
    ∃ before v after, values = before ++ v :: after ∧ ∀ i < values.length, i ≠ before.length →
      d.mappedCall? (d.field config "parameterMapping") i = none := by
  obtain ⟨j, inside, alone⟩ : ∃ j < values.length, ∀ i < values.length, i ≠ j →
      d.mappedCall? (d.field config "parameterMapping") i = none := by
    by_cases hit : ∃ j < values.length, ∃ call, d.mappedCall? (d.field config "parameterMapping") j = some call
    · obtain ⟨j, inside, call, hit⟩ := hit
      exact ⟨j, inside, fun i _ other => single.alone hit other⟩
    · refine ⟨0, List.length_pos_of_ne_nil nonempty, fun i inside _ => ?_⟩
      cases found : d.mappedCall? (d.field config "parameterMapping") i with
      | none => rfl
      | some call => exact absurd ⟨i, inside, call, found⟩ hit
  refine ⟨values.take j, values[j], values.drop (j + 1), ?_, ?_⟩
  · rw [List.getElem_cons_drop, List.take_append_drop]
  · rwa [List.length_take_of_le (Nat.le_of_lt inside)]

namespace Session

/-- What the steps before a task come to from the values that it has, after fewer than `n` steps of
tasks that follow one another. Nothing is said of a session that is not good. -/
inductive Unfolds (good : Session → Prop) : Nat → Session → List Frame → List Value → Ending → Prop where
  | lost {n : Nat} {s : Session} {frames : List Frame} {values : List Value} {e : Ending} (bad : ¬ good s) :
      Unfolds good n s frames values e
  | done (n : Nat) (s : Session) (values : List Value) : Unfolds good n s [] values ⟨s, some (.ok values)⟩
  | go {n m : Nat} {s t : Session} {frame : Frame} {rest next : List Frame} {values given : List Value} {e : Ending}
      (plain : s.Plain frame) (taken : s.takeStep frame values = (t, .go next given))
      (later : Unfolds good m t (next ++ rest) given e) (less : m < n) : Unfolds good n s (frame :: rest) values e
  | fail {n : Nat} {s t : Session} {frame : Frame} {rest : List Frame} {values : List Value} {fault : Fault}
      (plain : s.Plain frame) (taken : s.takeStep frame values = (t, .fail fault))
      (less : 0 < n) : Unfolds good n s (frame :: rest) values ⟨t, some (.error fault)⟩
  | pause {n m : Nat} {s : Session} {rest : List Frame} {values : List Value} {e : Ending}
      (later : Unfolds good m s rest [] e) (less : m < n) : Unfolds good n s (.pause :: rest) values e
  | pass {n m : Nat} {s : Session} {target : Target} {rest : List Frame} {values : List Value} {e : Ending}
      (idle : s.store.items? (s.store.field target.config "parameterMapping") = none ∨
        s.store.items? (s.store.field target.config "parameterMapping") = some [] ∨ values = [])
      (later : Unfolds good m s (.call target :: rest) values e) (less : m < n) :
      Unfolds good n s (.map target :: rest) values e
  /-- A parameter is mapped, and no other one ever is. -/
  | fan {n m k : Nat} {s : Session} {target : Target} {rest : List Frame} {mapping first v : Value}
      {others before after : List Value} {e : Ending} {next : Session → List Value → Ending}
      (same : s.store.field target.config "parameterMapping" = mapping)
      (mapped : s.store.items? mapping = some (first :: others))
      (alone : ∀ u, good u → ∀ index < (before ++ v :: after).length, index ≠ before.length →
        u.store.mappedCall? mapping index = none)
      (part : Unfolds good m s [.mapItem mapping before.length v] [] e)
      (later : ∀ given, e.outcome = some (.ok given) →
        Unfolds good k e.session (.call target :: rest) (before ++ given ++ after) (next e.session given))
      (less : m + k < n) : Unfolds good n s (.map target :: rest) (before ++ v :: after) (e.andThen next)
  | refused {n : Nat} {s t : Session} {target : Target} {rest : List Frame} {values : List Value} {fault : Fault}
      (received : s.receive target values = (t, .refused fault)) (less : 0 < n) :
      Unfolds good n s (.call target :: rest) values ⟨t, some (.error fault)⟩
  | given {n m : Nat} {s t : Session} {target : Target} {rest : List Frame} {values : List Value} {outcome : Outcome}
      {next : Session → List Value → Ending} (received : s.receive target values = (t, .given outcome))
      (later : ∀ given, outcome = .ok given → Unfolds good m t (.follow target.config :: rest) given (next t given))
      (less : m < n) : Unfolds good n s (.call target :: rest) values (Ending.andThen ⟨t, some outcome⟩ next)
  | late {n m k : Nat} {s t : Session} {target : Target} {rest : List Frame} {values : List Value} {own : Bool}
      {turns : Nat} {action : Action} {request : Request} {e : Ending} {next : Session → List Value → Ending}
      (received : s.receive target values = (t, .late own turns action request))
      (part : Unfolds good m t (lateSteps turns action request) [] e)
      (later : ∀ given, e.outcome = some (.ok given) →
        Unfolds good k e.session (.follow target.config :: rest) given (next e.session given))
      (less : m + k < n) : Unfolds good n s (.call target :: rest) values (e.andThen next)
  | left {n : Nat} {s t : Session} {target : Target} {rest : List Frame} {values : List Value}
      (received : s.receive target values = (t, .left)) (less : 0 < n) :
      Unfolds good n s (.call target :: rest) values ⟨t, none⟩

def Reaches (good : Session → Prop) (frames : List Frame) (next : Session → List Value → Ending) : Prop :=
  ∀ s values, ∃ n, Unfolds good n s frames values (next s values)

variable {good : Session → Prop} {n m k : Nat} {s t : Session} {frames rest : List Frame} {values : List Value} {e : Ending}

theorem Unfolds.more (unfolds : Unfolds good m s frames values e) (le : m ≤ n) : Unfolds good n s frames values e := by
  cases unfolds with
  | lost bad => exact .lost bad
  | done => exact .done ..
  | go plain taken later less => exact .go plain taken later (Nat.lt_of_lt_of_le less le)
  | fail plain taken less => exact .fail plain taken (Nat.lt_of_lt_of_le less le)
  | pause later less => exact .pause later (Nat.lt_of_lt_of_le less le)
  | pass idle later less => exact .pass idle later (Nat.lt_of_lt_of_le less le)
  | fan same mapped alone part later less => exact .fan same mapped alone part later (Nat.lt_of_lt_of_le less le)
  | refused received less => exact .refused received (Nat.lt_of_lt_of_le less le)
  | given received later less => exact .given received later (Nat.lt_of_lt_of_le less le)
  | late received part later less => exact .late received part later (Nat.lt_of_lt_of_le less le)
  | left received less => exact .left received (Nat.lt_of_lt_of_le less le)

/-- Steps after others come to what they come to from there. -/
theorem Unfolds.append {next : Session → List Value → Ending} (unfolds : Unfolds good m s frames values e)
    (later : ∀ given, e.outcome = some (.ok given) → Unfolds good k e.session rest given (next e.session given)) :
    Unfolds good (m + k) s (frames ++ rest) values (e.andThen next) := by
  -- Where the ending is made of two, the steps after these belong to the second one.
  induction unfolds with
  | lost bad => exact .lost bad
  | done => exact (later _ rfl).more (Nat.le_add_left ..)
  | go plain taken _ less ih =>
    have further := ih later
    rw [List.append_assoc] at further
    exact .go plain taken further (by omega)
  | fail plain taken less => exact .fail plain taken (by omega)
  | pause _ less ih => exact .pause (ih later) (by omega)
  | pass idle _ less ih => exact .pass idle (ih later) (by omega)
  | fan same mapped alone part _ less _ ih =>
    rw [Ending.andThen_assoc]
    refine .fan same mapped alone part (fun given ended => ih given ended ?_) (by omega)
    rwa [Ending.andThen_ok ended] at later
  | refused received less => exact .refused received (by omega)
  | given received _ less ih =>
    rw [Ending.andThen_assoc]
    refine .given received (fun given ended => ih given ended ?_) (by omega)
    subst ended
    exact later
  | late received part _ less _ ih =>
    rw [Ending.andThen_assoc]
    refine .late received part (fun given ended => ih given ended ?_) (by omega)
    rwa [Ending.andThen_ok ended] at later
  | left received less => exact .left received (by omega)

/-- Whatever goes on with the values that work hands on does so with one bound. -/
theorem exists_later {P : Nat → Session → List Value → Prop} (each : ∀ s values, ∃ k, P k s values) (e : Ending) :
    ∃ k, ∀ given, e.outcome = some (.ok given) → P k e.session given := by
  by_cases ended : ∃ values, e.outcome = some (.ok values)
  · obtain ⟨values, ended⟩ := ended
    obtain ⟨k, holds⟩ := each e.session values
    refine ⟨k, fun given same => ?_⟩
    cases ended.symm.trans same
    exact holds
  · exact ⟨0, fun given same => absurd ⟨given, same⟩ ended⟩

theorem Reaches.append {first next : Session → List Value → Ending} (before : Reaches good frames first)
    (after : Reaches good rest next) : Reaches good (frames ++ rest) fun s values => (first s values).andThen next := by
  intro s values
  obtain ⟨m, unfolds⟩ := before s values
  obtain ⟨k, later⟩ := exists_later after (first s values)
  exact ⟨m + k, unfolds.append later⟩

section Mapping

variable (eval : Session → Value → List Value → Ending) {mapping : Value}

theorem mapAll_unmapped {index : Nat} {values : List Value}
    (none : ∀ i, index ≤ i → i < index + values.length → s.store.mappedCall? mapping i = none) :
    s.mapAll eval mapping index values = ⟨s, some (.ok values)⟩ := by
  induction values generalizing index with
  | nil => rfl
  | cons v rest ih =>
    rw [List.length_cons] at none
    have own := none index (Nat.le_refl _) (by omega)
    have later := @ih (index + 1) fun i after inside => none i (by omega) (by omega)
    rw [mapAll, mapOne, own, Ending.andThen_ok rfl, later]
    rfl

/-- Without a mapping, or without parameters, there is nothing to map. -/
theorem mapAll_idle {values : List Value}
    (idle : (s.store.items? mapping = none ∨ s.store.items? mapping = some []) ∨ values = []) :
    s.mapAll eval mapping 0 values = ⟨s, some (.ok values)⟩ := by
  refine mapAll_unmapped eval fun i _ inside => ?_
  rcases idle with (none | empty) | rfl
  · rw [Store.mappedCall?, none]
    rfl
  · rw [Store.mappedCall?, empty]
    rfl
  · exact absurd inside (by simp)

theorem mapAll_single {index : Nat} {before after : List Value} {v : Value}
    (none : ∀ i, index ≤ i → i < index + before.length → s.store.mappedCall? mapping i = none) :
    s.mapAll eval mapping index (before ++ v :: after) =
      (s.mapOne eval mapping (index + before.length) v).andThen fun t given =>
        (t.mapAll eval mapping (index + before.length + 1) after).andThen fun u others =>
          ⟨u, some (.ok (before ++ given ++ others))⟩ := by
  induction before generalizing index with
  | nil => rfl
  | cons w rest ih =>
    rw [List.length_cons] at none
    have own := none index (Nat.le_refl _) (by omega)
    have later := @ih (index + 1) fun i after inside => none i (by omega) (by omega)
    rw [List.length_cons, Nat.add_comm rest.length 1, ← Nat.add_assoc, List.cons_append, mapAll, mapOne, own,
      Ending.andThen_ok rfl, later, Ending.andThen_assoc]
    simp only [Ending.andThen_assoc]
    rfl

end Mapping

section Calls

variable {d : Store} {whole : Value} {eval : Session → Value → List Value → Ending}
  {next : Session → List Value → Ending}

theorem reaches_mapItem {mapping : Value} {index : Nat} {v : Value} (kept : ∀ t, d.Keeps t whole → d.Keeps t mapping)
    (ends : ∀ call ∈ d.mappedCalls mapping, Reaches (Intact d whole) [.invoke call (.tuple [v])] fun s _ => eval s call [v]) :
    Reaches (Intact d whole) [.mapItem mapping index v] fun s _ => s.mapOne eval mapping index v := by
  intro s values
  by_cases fine : s.Intact d whole
  · have same := (kept _ fine.document).mappedCall? index
    unfold mapOne
    simp only [same]
    cases hit : d.mappedCall? mapping index with
    | none =>
      have taken : s.takeStep (.mapItem mapping index v) values = (s, .go [] [v]) := by
        simp only [takeStep, same, hit]
      exact ⟨1, .go trivial taken (.done 0 s [v]) Nat.zero_lt_one⟩
    | some call =>
      obtain ⟨found, isCall⟩ := Option.filter_eq_some_iff.mp hit
      obtain ⟨n, unfolds⟩ := ends call (List.mem_filter.mpr ⟨List.mem_of_getElem? found, isCall⟩) s []
      have taken : s.takeStep (.mapItem mapping index v) values = (s, .go [.invoke call (.tuple [v])] []) := by
        simp only [takeStep, same, hit]
      exact ⟨n + 1, .go trivial taken unfolds (Nat.lt_succ_self n)⟩
  · exact ⟨0, .lost fine⟩

theorem reaches_follow {config : Value} (kept : ∀ t, d.Keeps t whole → d.Keeps t config)
    (ends : d.isMapping (d.field config "resultMapping") = true → ∀ values,
      Reaches (Intact d whole) [.invoke (d.field config "resultMapping") (.tuple values)]
        fun s _ => eval s (d.field config "resultMapping") values) :
    Reaches (Intact d whole) [.follow config] fun s values => s.adopt eval config values := by
  intro s values
  by_cases fine : s.Intact d whole
  · have kept := kept _ fine.document
    have field := kept.field "resultMapping"
    have same := (kept.of_field "resultMapping").isMapping
    simp only [adopt, field, same]
    cases mapping : d.isMapping (d.field config "resultMapping") with
    | true =>
      obtain ⟨n, unfolds⟩ := ends mapping values s []
      have taken : s.takeStep (.follow config) values =
          (s, .go [.invoke (d.field config "resultMapping") (.tuple values)] []) := by
        simp only [takeStep, followCall, field, same, mapping, if_true]
      exact ⟨n + 1, .go trivial taken unfolds (Nat.lt_succ_self n)⟩
    | false =>
      have taken : s.takeStep (.follow config) values = (s, .go [] values) := by
        simp only [takeStep, followCall, field, same, mapping, Bool.false_eq_true, if_false]
      exact ⟨1, .go trivial taken (.done 0 s values) Nat.zero_lt_one⟩
  · exact ⟨0, .lost fine⟩

theorem unfolds_late {action : Action} (shelters : s.Shelters action) (turns : Nat) (request : Request) (values : List Value) :
    Unfolds (Intact d whole) (turns + 1) s (lateSteps turns action request) values
      ⟨(s.act action request).1, some (lateOutcome (s.act action request).2)⟩ := by
  induction turns generalizing values with
  | zero =>
    have taken := s.takeStep_act action request values
    cases answer : (s.act action request).2 with
    | ok v =>
      rw [answer] at taken
      exact .go shelters taken (.done 0 _ [v]) Nat.zero_lt_one
    | error fault =>
      rw [answer] at taken
      exact .fail shelters taken Nat.zero_lt_one
  | succ turns ih => exact .pause (ih []) (Nat.lt_succ_self _)

theorem reaches_call {target : Target} (later : Reaches (Intact d whole) [.follow target.config] next) :
    Reaches (Intact d whole) [.call target] fun s values => (s.serve target values).andThen next := by
  intro s values
  by_cases fine : s.Intact d whole
  · obtain ⟨t, reception, received⟩ : ∃ t reception, s.receive target values = (t, reception) := ⟨_, _, rfl⟩
    dsimp only
    rw [serve, received]
    cases reception with
    | refused fault => exact ⟨1, .refused received Nat.zero_lt_one⟩
    | given outcome =>
      obtain ⟨k, unfolds⟩ := exists_later later ⟨t, some outcome⟩
      exact ⟨k + 1, .given received (fun given same => unfolds given (congrArg some same)) (Nat.lt_succ_self k)⟩
    | late own turns action request =>
      have shelters := shelters_receive fine.secluded received
      have part := @unfolds_late t d whole action shelters turns request []
      obtain ⟨k, unfolds⟩ := exists_later later ⟨(t.act action request).1, some (lateOutcome (t.act action request).2)⟩
      exact ⟨turns + 1 + k + 1, .late received part unfolds (Nat.lt_succ_self _)⟩
    | left => exact ⟨1, .left received Nat.zero_lt_one⟩
  · exact ⟨0, .lost fine⟩

/-- At most one of the parameters is mapped. Those before it and after it wait for it. -/
theorem reaches_map {target : Target} (kept : ∀ t, d.Keeps t whole → d.Keeps t target.config) (single : d.Single target.config)
    (ends : ∀ call ∈ d.mappedCalls (d.field target.config "parameterMapping"), ∀ v,
      Reaches (Intact d whole) [.invoke call (.tuple [v])] fun s _ => eval s call [v])
    (later : Reaches (Intact d whole) [.call target] next) :
    Reaches (Intact d whole) [.map target] fun s values =>
      (s.mapAll eval (s.store.field target.config "parameterMapping") 0 values).andThen next := by
  intro s values
  by_cases fine : s.Intact d whole
  · have field := (kept _ fine.document).field "parameterMapping"
    have mappings (t : Store) (same : d.Keeps t whole) := (kept t same).of_field "parameterMapping"
    dsimp only
    rw [field]
    by_cases idle : (s.store.items? (d.field target.config "parameterMapping") = none ∨
        s.store.items? (d.field target.config "parameterMapping") = some []) ∨ values = []
    · rw [mapAll_idle eval idle, Ending.andThen_ok rfl]
      obtain ⟨n, unfolds⟩ := later s values
      rw [← field, or_assoc] at idle
      exact ⟨n + 1, .pass idle unfolds (Nat.lt_succ_self n)⟩
    · rw [not_or] at idle
      obtain ⟨first, others, mapped⟩ := (items?_cases s.store _).resolve_left idle.1
      obtain ⟨before, v, after, rfl, alone⟩ := single.split idle.2
      have alone (u : Session) (fine : u.Intact d whole) (i : Nat) (within : i < (before ++ v :: after).length)
          (other : i ≠ before.length) : u.store.mappedCall? (d.field target.config "parameterMapping") i = none :=
        ((mappings _ fine.document).mappedCall? i).trans (alone i within other)
      rw [List.length_append, List.length_cons] at alone
      rw [mapAll_single eval fun i _ within => alone s fine i (by omega) (by omega), Nat.zero_add, Ending.andThen_assoc]
      simp only [Ending.andThen_assoc]
      obtain ⟨m, part⟩ := @reaches_mapItem d whole eval _ before.length v mappings (fun call member => ends call member v) s []
      have each (t : Session) (given : List Value) : ∃ k, Unfolds (Intact d whole) k t [.call target] (before ++ given ++ after)
          ((t.mapAll eval (d.field target.config "parameterMapping") (before.length + 1) after).andThen fun u others =>
            next u (before ++ given ++ others)) := by
        by_cases still : t.Intact d whole
        · obtain ⟨k, unfolds⟩ := later t (before ++ given ++ after)
          rw [mapAll_unmapped eval fun i _ within => alone t still i (by omega) (by omega), Ending.andThen_ok rfl]
          exact ⟨k, unfolds⟩
        · exact ⟨0, .lost still⟩
      obtain ⟨k, further⟩ := exists_later each (s.mapOne eval (d.field target.config "parameterMapping") before.length v)
      exact ⟨m + k + 1, .fan field mapped (by simpa using alone) part further (Nat.lt_succ_self _)⟩
  · exact ⟨0, .lost fine⟩

end Calls

/-- The steps of an accepted call come to what it evaluates to. -/
theorem reaches_invoke {c : Coordinator} {d : Store} {whole : Value}
    (single : ∀ call, d.Leads whole call → d.Single call) {depth : Nat} {config : Value}
    (passed : c.check d depth config = .ok ()) (leads : d.Leads whole config) (list : Value) :
    Reaches (Intact d whole) [.invoke config list] fun s _ => evaluate depth s config ((s.store.items? list).getD []) := by
  -- Nested calls unfold by induction on the depth that validation has bounded.
  induction depth generalizing config list with
  | zero => cases passed
  | succ depth ih =>
    obtain ⟨_, below⟩ := Coordinator.check_ok.mp passed
    have kept (t : Store) (same : d.Keeps t whole) : d.Keeps t config := same.leads leads
    have ends {part : Value} (member : part ∈ d.parts config) (given : List Value) :
        Reaches (Intact d whole) [.invoke part (.tuple given)] fun s _ => evaluate depth s part given :=
      ih (below part member) (leads.trans (.part member (.self part))) (.tuple given)
    intro s values
    by_cases fine : s.Intact d whole
    · dsimp only
      rw [evaluate]
      cases aimed : s.coordinator.target s.store config with
      | error fault =>
        have taken : s.takeStep (.invoke config list) values = (s, .fail fault) := by
          simp only [takeStep, invoke, aimed]
        exact ⟨1, .fail (show s.Plain (.invoke _ _) from trivial) taken Nat.zero_lt_one⟩
      | ok target =>
        obtain ⟨_, rfl, _⟩ := Coordinator.target_ok.mp aimed
        have last := reaches_follow kept fun mapping values =>
          ends (List.mem_append_right _ (List.mem_filter.mpr ⟨List.mem_singleton_self _, mapping⟩)) values
        have rest := reaches_map kept (single _ leads)
          (fun call member v => ends (mem_given_parts (mem_mappedCalls_given member)) [v]) (reaches_call last)
        have source : s.store.source (s.store.field target.config "parameters") = d.source (d.field target.config "parameters") := by
          rw [(kept _ fine.document).field, ((kept _ fine.document).of_field _).source]
        dsimp only
        unfold supply
        rw [source]
        cases supplied : d.source (d.field target.config "parameters") with
        | literal items =>
          rw [supplied] at source
          cases resolved : s.store.resolveItems s.coordinator.context items with
          | error fault =>
            have taken : s.takeStep (.invoke target.config list) values = (s, .fail fault) := by
              simp only [takeStep, invoke, aimed, fetch, source, resolved]
            dsimp only
            rw [resolved]
            exact ⟨1, .fail (show s.Plain (.invoke _ _) from trivial) taken Nat.zero_lt_one⟩
          | ok params =>
            obtain ⟨n, unfolds⟩ := rest s params
            have taken : s.takeStep (.invoke target.config list) values = (s, .go [.map target] params) := by
              simp only [takeStep, invoke, aimed, fetch, source, resolved]
            dsimp only
            rw [resolved]
            exact ⟨n + 1, .go trivial taken unfolds (Nat.lt_succ_self n)⟩
        | derived inner =>
          rw [supplied] at source
          have first := ih (below inner (mem_given_parts (Store.mem_given_derived supplied)))
            (leads.trans (.part (mem_given_parts (Store.mem_given_derived supplied)) (.self inner))) .null
          obtain ⟨n, unfolds⟩ := first.append rest s []
          have taken : s.takeStep (.invoke target.config list) values = (s, .go [.invoke inner .null, .map target] []) := by
            simp only [takeStep, invoke, aimed, fetch, source]
          exact ⟨n + 1, .go trivial taken unfolds (Nat.lt_succ_self n)⟩
        | absent =>
          rw [supplied] at source
          obtain ⟨n, unfolds⟩ := rest s ((s.store.items? list).getD [])
          have taken : s.takeStep (.invoke target.config list) values =
              (s, .go [.map target] ((s.store.items? list).getD [])) := by
            simp only [takeStep, invoke, aimed, fetch, source]
          exact ⟨n + 1, .go trivial taken unfolds (Nat.lt_succ_self n)⟩
    · exact ⟨0, .lost fine⟩

end Session

end Interaction
