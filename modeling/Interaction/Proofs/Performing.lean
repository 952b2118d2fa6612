import Interaction.Proofs.Evaluation
import Interaction.Proofs.BehaviorWaiters

/-! What the steps before a task come to. Each of its steps leaves to the steps after it, and to
the tasks that it starts, what was to be evaluated and asked. -/

namespace Interaction

open Reading

variable {δ : Type}

/-- What the steps before a task come to from the values that it has: the values that it ends
with, and what it asks on the way. -/
inductive Performs (r : Reading δ) (c : Coordinator) (d : Store) : List Frame → List δ → List δ → List (Ask δ) → Prop where
  | done (values : List δ) : Performs r c d [] values values []
  | invoke {config given : Value} {list : List Value} {rest : List Frame} {depth : Nat} {values result : List δ} {y : δ}
      {asks more : List (Ask δ)} (supplied : ∀ s : Store, (s.items? given).getD [] = list)
      (ends : r.evaluate c d depth config (list.map r.read) = some (y, asks)) (later : Performs r c d rest [y] result more) :
      Performs r c d (.invoke config given :: rest) values result (asks ++ more)
  | map {target : Target} {rest : List Frame} {depth : Nat} {params mapped result : List δ} {asks more : List (Ask δ)}
      (ends : mapFrom d (r.evaluate c d depth) (d.field target.config "parameterMapping") 0 params = some (mapped, asks))
      (later : Performs r c d (.call target :: rest) mapped result more) :
      Performs r c d (.map target :: rest) params result (asks ++ more)
  | call {target : Target} {rest : List Frame} {params result : List δ} {more : List (Ask δ)}
      (later : Performs r c d (.follow target.config :: rest) [r.answer target.service target.method params] result more) :
      Performs r c d (.call target :: rest) params result (.call target.service target.method params :: more)
  | follow {config : Value} {rest : List Frame} {depth : Nat} {x y : δ} {result : List δ} {asks more : List (Ask δ)}
      (ends : follow d (r.evaluate c d depth) config x = some (y, asks)) (later : Performs r c d rest [y] result more) :
      Performs r c d (.follow config :: rest) [x] result (asks ++ more)
  | mapItem {mapping value : Value} {index : Nat} {rest : List Frame} {depth : Nat} {values result : List δ} {y : δ}
      {asks more : List (Ask δ)} (ends : mapItem d (r.evaluate c d depth) mapping index (r.read value) = some (y, asks))
      (later : Performs r c d rest [y] result more) :
      Performs r c d (.mapItem mapping index value :: rest) values result (asks ++ more)
  | materialize {config : Value} {depth : Nat} {values : List δ} {asks : List (Ask δ)}
      (ends : r.materialize c d (r.evaluate c d depth) config = some asks) :
      Performs r c d [.materialize config] values [] asks
  | arrange {config : Value} {depth : Nat} {y : δ} {asks : List (Ask δ)}
      (ends : r.arrange d (r.evaluate c d depth) config y = some asks) : Performs r c d [.arrange config] [y] [] asks
  | place (config : Value) (whole : Bool) (params : List δ) :
      Performs r c d [.place config whole] params [] [.place config whole params]

namespace Session

def asks (s : Session) (read : Value → δ) (frame : Frame) (values : List Value) : List (Ask δ) :=
  (s.deeds 0 frame values).filterMap (Deed.ask? read)

/-- How a step goes on to what the steps before a task come to. -/
inductive Advances (r : Reading δ) (c : Coordinator) (d : Store) (s : Session) (frame : Frame) (values : List Value)
    (rest : List Frame) (result : List δ) (asks : List (Ask δ)) : Prop where
  /-- The task goes on at once. -/
  | on {next : List Frame} {given : List Value} {more : List (Ask δ)}
      (taken : (s.takeStep frame values).2 = .go next given) (none : s.offspring frame values = [])
      (later : Performs r c d (next ++ rest) (given.map r.read) result more)
      (asked : asks = s.asks r.read frame values ++ more)
  /-- Parameters are mapped side by side. -/
  | fan {mapping : Value} {items : List Value} {next : List Frame} {depth : Nat} {mapped : List δ}
      {first more : List (Ask δ)}
      (taken : s.takeStep frame values = (s.fan mapping items, .await (s.schedule.promises.size + items.length) next))
      (started : s.offspring frame values = List.range' s.schedule.promises.size (items.length + 1))
      (silent : s.asks r.read frame values = [])
      (ends : mapFrom d (r.evaluate c d depth) mapping 0 (items.map r.read) = some (mapped, first))
      (later : Performs r c d (next ++ rest) mapped result more) (asked : asks = first ++ more)
  /-- A service is called. -/
  | call {target : Target} {more : List (Ask δ)} (same : frame = .call target)
      (later : Performs r c d (.follow target.config :: rest)
        [r.answer target.service target.method (values.map r.read)] result more)
      (asked : asks = s.asks r.read frame values ++ more)
  /-- The factory is called, and refuses. -/
  | refused {config : Value} {whole : Bool} {fault : Fault} (same : frame = .place config whole)
      (failed : (s.takeStep frame values).2 = .fail fault) (asked : asks = s.asks r.read frame values)

variable {r : Reading δ} {c : Coordinator} {d : Store} {whole : Value} {asked : Value → Prop} {s : Session}

theorem advances_mapEach {frame : Frame} {values items : List Value} {mapping : Value} {next rest : List Frame}
    {depth : Nat} {mapped result : List δ} {first more : List (Ask δ)}
    (started : s.offspring frame values = List.range' s.schedule.promises.size
      ((s.takeStep frame values).1.schedule.promises.size - s.schedule.promises.size))
    (taken : s.takeStep frame values = s.mapEach mapping items next) (silent : s.asks r.read frame values = [])
    (kept : s.store.items? mapping = d.items? mapping)
    (ends : mapFrom d (r.evaluate c d depth) mapping 0 (items.map r.read) = some (mapped, first))
    (later : Performs r c d (next ++ rest) mapped result more) :
    s.Advances r c d frame values rest result (first ++ more) := by
  rcases items?_cases d mapping with unmapped | ⟨head, tail, some⟩
  · rw [mapFrom_unmapped _ unmapped] at ends
    cases ends
    rw [← kept] at unmapped
    rw [mapEach_unmapped unmapped] at taken
    refine .on (by rw [taken]) ?_ later (by rw [silent])
    rw [started, taken, Nat.sub_self]
    rfl
  · rw [mapEach_mapped (kept.trans some)] at taken
    refine .fan taken ?_ silent ends later rfl
    rw [started, taken, size_fan]
    congr 1
    omega

/-- What is known when a step is taken: the session upholds what was accepted, and the data
context is kept. -/
structure Steady (s : Session) (c : Coordinator) (d : Store) (whole : Value) (asked : Value → Prop) : Prop where
  upholds : s.Upholds c d whole
  accepted : Accepted c d whole asked
  context : d.Keeps s.store c.context

theorem Steady.resolveItems (steady : s.Steady c d whole asked) (items : List Value) :
    s.store.resolveItems s.coordinator.context items = d.resolveItems c.context items := by
  rw [steady.upholds.registry.context, steady.context.resolveItems]

theorem Steady.kept (steady : s.Steady c d whole asked) {config : Value} (member : asked config) :
    d.Keeps s.store config :=
  steady.accepted.within config member s.store steady.upholds.document

variable {values : List Value} {rest : List Frame} {result : List δ} {more : List (Ask δ)}

theorem advances_invoke (steady : s.Steady c d whole asked) {config given : Value} (member : asked config)
    {items : List Value} (supplied : (s.store.items? given).getD [] = items) {depth : Nat} {y : δ} {asks : List (Ask δ)}
    (ends : r.evaluate c d depth config (items.map r.read) = some (y, asks)) (later : Performs r c d rest [y] result more) :
    s.Advances r c d (.invoke config given) values rest result (asks ++ more) := by
  obtain ⟨target, aimed, same, again⟩ := target_again steady.upholds steady.accepted member
  have kept := steady.kept member
  cases depth with
  | zero => cases ends
  | succ depth =>
    obtain ⟨other, params, first, mapped, second, third, found, supply, between, last, rfl⟩ := evaluate_succ.mp ends
    cases aimed.symm.trans found
    have after : Performs r c d (.map target :: rest) params result
        (second ++ (.call target.service target.method mapped :: (third ++ more))) :=
      .map (by rwa [same]) (.call (.follow (by rwa [same]) later))
    have silent : s.asks r.read (.invoke config given) values = [] := rfl
    have none : s.offspring (.invoke config given) values = [] := offspring_same rfl (by rw [takeStep, fst_invoke])
    have source : s.store.source (s.store.field config "parameters") = d.source (d.field config "parameters") := by
      rw [kept.field, (kept.of_field _).source]
    unfold Reading.supply at supply
    split at supply
    next items literal =>
      rw [literal] at source
      cases resolved : d.resolveItems c.context items with
      | error fault => simp [resolved] at supply
      | ok list =>
        simp only [resolved, Option.some.injEq, Prod.mk.injEq] at supply
        obtain ⟨rfl, rfl⟩ := supply
        have taken : (s.takeStep (.invoke config given) values).2 = .go [.map target] list := by
          simp only [takeStep, invoke, again, fetch, source, steady.resolveItems, resolved]
        exact .on taken none after (by simp [silent])
    next inner derived =>
      rw [derived] at source
      obtain ⟨⟨x, asks⟩, ended, supply⟩ := Option.bind_eq_some_iff.mp supply
      cases supply
      have before : Performs r c d (.invoke inner .null :: .map target :: rest) [] result
          (first ++ (second ++ (.call target.service target.method mapped :: (third ++ more)))) :=
        .invoke (fun _ => rfl) ended after
      have taken : (s.takeStep (.invoke config given) values).2 = .go [.invoke inner .null, .map target] [] := by
        simp only [takeStep, invoke, again, fetch, source]
      exact .on taken none before (by simp [silent])
    next absent =>
      rw [absent] at source
      cases supply
      have taken : (s.takeStep (.invoke config given) values).2 = .go [.map target] items := by
        simp only [takeStep, invoke, again, fetch, source, supplied]
      exact .on taken none after (by simp [silent])

theorem advances_call {target : Target} (later : Performs r c d (.follow target.config :: rest)
      [r.answer target.service target.method (values.map r.read)] result more) :
    s.Advances r c d (.call target) values rest result
      (.call target.service target.method (values.map r.read) :: more) :=
  .call rfl later rfl

theorem advances_follow (steady : s.Steady c d whole asked) {config v : Value} (member : asked config) {depth : Nat} {y : δ}
    {asks : List (Ask δ)} (ends : follow d (r.evaluate c d depth) config (r.read v) = some (y, asks))
    (later : Performs r c d rest [y] result more) : s.Advances r c d (.follow config) [v] rest result (asks ++ more) := by
  have kept := steady.kept member
  have mapping : s.store.isMapping (d.field config "resultMapping") = d.isMapping (d.field config "resultMapping") :=
    (kept.of_field _).isMapping
  have none : s.offspring (.follow config) [v] = [] := by
    apply offspring_same rfl
    simp only [takeStep, followCall]
    split <;> rfl
  unfold Reading.follow at ends
  split at ends
  next isCall =>
    rw [isCall] at mapping
    have before : Performs r c d (.invoke (d.field config "resultMapping") (.tuple [v]) :: rest) [] result (asks ++ more) :=
      .invoke (fun _ => rfl) (by simpa using ends) later
    have taken : (s.takeStep (.follow config) [v]).2 = .go [.invoke (d.field config "resultMapping") (.tuple [v])] [] := by
      simp only [takeStep, followCall, kept.field, mapping, if_true]
    exact .on taken none before rfl
  next noCall =>
    cases ends
    rw [Bool.eq_false_iff.mpr noCall] at mapping
    have taken : (s.takeStep (.follow config) [v]).2 = .go [] [v] := by
      simp only [takeStep, followCall, kept.field, mapping, Bool.false_eq_true, if_false]
    exact .on taken none later rfl

theorem advances_mapItem {mapping : Value} (kept : d.Keeps s.store mapping) {value : Value} {index depth : Nat} {y : δ} {asks : List (Ask δ)}
    (ends : mapItem d (r.evaluate c d depth) mapping index (r.read value) = some (y, asks))
    (later : Performs r c d rest [y] result more) :
    s.Advances r c d (.mapItem mapping index value) values rest result (asks ++ more) := by
  have none : s.offspring (.mapItem mapping index value) values = [] := by
    apply offspring_same rfl
    simp only [takeStep]
    split <;> rfl
  unfold Reading.mapItem at ends
  split at ends
  next config hit =>
    have before : Performs r c d (.invoke config (.tuple [value]) :: rest) [] result (asks ++ more) :=
      .invoke (fun _ => rfl) (by simpa using ends) later
    have taken : (s.takeStep (.mapItem mapping index value) values).2 = .go [.invoke config (.tuple [value])] [] := by
      simp only [takeStep, kept.mappedCall?, hit]
    exact .on taken none before rfl
  next miss =>
    cases ends
    have taken : (s.takeStep (.mapItem mapping index value) values).2 = .go [] [value] := by
      simp only [takeStep, kept.mappedCall?, miss]
    exact .on taken none later rfl

theorem advances_place {frame : Frame} {config : Value} (kept : d.Keeps s.store config) {items : List Value} {depth : Nat}
    {asks : List (Ask δ)} (started : s.offspring frame values = List.range' s.schedule.promises.size
      ((s.takeStep frame values).1.schedule.promises.size - s.schedule.promises.size))
    (taken : s.takeStep frame values = s.mapEach (s.store.field config "parameterMapping") items [.place config false])
    (silent : s.asks r.read frame values = [])
    (ends : Reading.place d (r.evaluate c d depth) config (items.map r.read) = some asks) :
    s.Advances r c d frame values [] [] asks := by
  obtain ⟨⟨mapped, first⟩, between, same⟩ := Option.bind_eq_some_iff.mp ends
  cases same
  rw [kept.field] at taken
  exact advances_mapEach started taken silent (kept.of_field _).items between (.place config false mapped)

theorem advances_materialize (steady : s.Steady c d whole asked) {depth : Nat} {asks : List (Ask δ)}
    (ends : r.materialize c d (r.evaluate c d depth) whole = some asks) :
    s.Advances r c d (.materialize whole) values [] [] asks := by
  have kept := steady.upholds.document
  have source : s.store.source (s.store.field whole "parameters") = d.source (d.field whole "parameters") := by
    rw [kept.field, (kept.of_field _).source]
  have silent : s.asks r.read (.materialize whole) values = [] := rfl
  unfold Reading.materialize at ends
  split at ends
  next inner derived =>
    rw [derived] at source
    obtain ⟨⟨y, first⟩, ended, ends⟩ := Option.bind_eq_some_iff.mp ends
    obtain ⟨second, arranged, same⟩ := Option.bind_eq_some_iff.mp ends
    cases same
    have before : Performs r c d (.invoke inner .null :: [.arrange whole]) [] [] (first ++ second) :=
      .invoke (fun _ => rfl) ended (.arrange arranged)
    have taken : s.takeStep (.materialize whole) values = (s, .go [.invoke inner .null, .arrange whole] []) := by
      simp only [takeStep, materialize, fetch, source]
    exact .on (congrArg Prod.snd taken) (offspring_same rfl (by rw [taken])) before rfl
  next other =>
    obtain ⟨⟨params, first⟩, supplied, ends⟩ := Option.bind_eq_some_iff.mp ends
    unfold Reading.supply at supplied
    split at supplied
    next items literal =>
      rw [literal] at source
      cases resolved : d.resolveItems c.context items with
      | error fault => simp [resolved] at supplied
      | ok list =>
        simp only [resolved, Option.some.injEq, Prod.mk.injEq] at supplied
        obtain ⟨rfl, rfl⟩ := supplied
        refine advances_place kept rfl ?_ silent ends
        simp only [takeStep, materialize, fetch, source, steady.resolveItems, resolved]
    next inner derived => exact absurd derived (other inner)
    next absent =>
      rw [absent] at source
      cases supplied
      have taken : s.takeStep (.materialize whole) values =
          s.mapEach (s.store.field whole "parameterMapping") [] [.place whole false] := by
        simp only [takeStep, materialize, fetch, source]
      exact advances_place kept rfl taken silent ends

theorem advances_arrange (steady : s.Steady c d whole asked) {v : Value} {depth : Nat} {asks : List (Ask δ)}
    (listed : (s.listItems? v).map (List.map r.read) = r.items (r.read v))
    (ends : r.arrange d (r.evaluate c d depth) whole (r.read v) = some asks) :
    s.Advances r c d (.arrange whole) [v] [] [] asks := by
  have kept := steady.upholds.document
  have mapping : s.store.items? (s.store.field whole "parameterMapping") = d.items? (d.field whole "parameterMapping") := by
    rw [kept.field, (kept.of_field _).items]
  have silent : s.asks r.read (.arrange whole) [v] = [] := rfl
  unfold Reading.arrange at ends
  split at ends
  next params head tail items some =>
    rw [items] at listed
    obtain ⟨list, found, rfl⟩ := Option.map_eq_some_iff.mp listed
    refine advances_place kept rfl ?_ silent ends
    simp only [takeStep, arrange, List.head?_cons, Option.bind_some, found, mapping, some]
  next other =>
    cases ends
    have taken : s.takeStep (.arrange whole) [v] = (s, .go [.place whole true] [v]) := by
      simp only [takeStep, arrange, List.head?_cons, Option.bind_some, mapping]
      split
      next list head tail found some =>
        rw [found] at listed
        exact absurd some (other _ head tail listed.symm)
      · rfl
    exact .on (congrArg Prod.snd taken) (offspring_same rfl (by rw [taken])) (.place whole true [r.read v]) rfl

theorem advances_handOver {config : Value} {all : Bool} :
    s.Advances r c d (.place config all) values [] [] [.place config all (values.map r.read)] := by
  have asked : s.asks r.read (.place config all) values = [.place config all (values.map r.read)] := rfl
  have none : s.offspring (.place config all) values = [] := offspring_same rfl (s.schedule_place config all values)
  have moves : (∃ fault, (s.takeStep (.place config all) values).2 = .fail fault) ∨
      (s.takeStep (.place config all) values).2 = .go [] [] := by
    simp only [takeStep, place]
    split
    · exact Or.inl ⟨_, rfl⟩
    · exact Or.inr rfl
  rcases moves with ⟨fault, failed⟩ | taken
  · exact .refused rfl failed asked.symm
  · exact .on taken none (.done []) (by rw [asked]; rfl)

/-- Each step of a task that performs something advances. -/
theorem advances (steady : s.Steady c d whole asked) {frame : Frame} (due : frame.Due c d whole asked)
    {asks : List (Ask δ)} (listed : ∀ config v, frame = .arrange config → values = [v] →
      (s.listItems? v).map (List.map r.read) = r.items (r.read v))
    (performs : Performs r c d (frame :: rest) (values.map r.read) result asks) :
    s.Advances r c d frame values rest result asks := by
  generalize read : values.map r.read = given at performs
  cases performs with
  | invoke supplied ends later =>
    cases due with
    | invoke member => exact advances_invoke steady member (supplied s.store) ends later
    | late isLate => cases isLate
  | @map target _ _ _ _ _ asks more ends later =>
    subst read
    cases due with
    | map member aimed =>
      have kept := steady.kept member
      rw [← kept.field] at ends
      refine advances_mapEach rfl rfl rfl ?_ ends later
      rw [kept.field, (kept.of_field _).items]
    | late isLate => cases isLate
  | call later =>
    subst read
    exact advances_call later
  | follow ends later =>
    obtain ⟨v, rfl, rfl⟩ : ∃ v, values = [v] ∧ r.read v = _ := by simpa using read
    cases due with
    | follow member => exact advances_follow steady member ends later
    | late isLate => cases isLate
  | mapItem ends later =>
    cases due with
    | mapItem members within => exact advances_mapItem (within _ steady.upholds.document) ends later
    | late isLate => cases isLate
  | materialize ends =>
    cases due with
    | materialize members => exact advances_materialize steady ends
    | late isLate => cases isLate
  | arrange ends =>
    obtain ⟨v, rfl, rfl⟩ : ∃ v, values = [v] ∧ r.read v = _ := by simpa using read
    cases due with
    | arrange members => exact advances_arrange steady (listed whole v rfl rfl) ends
    | late isLate => cases isLate
  | place config all =>
    subst read
    exact advances_handOver

end Session

end Interaction
