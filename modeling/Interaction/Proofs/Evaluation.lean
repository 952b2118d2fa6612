import Interaction.Proofs.Soundness

/-! What calls evaluate to, and what is asked of services on the way, if every method answers the
same to the same parameters. A call is evaluated as a tree: its parameters, the calls that map
them one after the other, the call itself, and the call that maps its result. -/

namespace Interaction

/-- How values are read, and what services answer. -/
structure Reading (δ : Type) where
  read : Value → δ
  /-- What a method of a service answers to parameters. -/
  answer : Nat → String → List δ → δ
  items : δ → Option (List δ)

inductive Ask (δ : Type) where
  | call (service : Nat) (method : String) (params : List δ)
  /-- A situation is handed over, with its parameters or with the only one as a whole. -/
  | place (config : Value) (whole : Bool) (params : List δ)

namespace Reading

variable {δ : Type} (r : Reading δ) (c : Coordinator) (d : Store)

def mapItem (eval : Value → List δ → Option (δ × List (Ask δ))) (mapping : Value) (index : Nat) (x : δ) :
    Option (δ × List (Ask δ)) :=
  match d.mappedCall? mapping index with
  | some config => eval config [x]
  | none => some (x, [])

/-- Parameters one after the other, the first of which has an index. -/
def mapFrom (eval : Value → List δ → Option (δ × List (Ask δ))) (mapping : Value) :
    Nat → List δ → Option (List δ × List (Ask δ))
  | _, [] => some ([], [])
  | index, x :: rest => do
    let (y, asks) ← mapItem d eval mapping index x
    let (ys, more) ← mapFrom eval mapping (index + 1) rest
    return (y :: ys, asks ++ more)

def supply (eval : Value → List δ → Option (δ × List (Ask δ))) (config : Value) (given : List δ) :
    Option (List δ × List (Ask δ)) :=
  match d.source (d.field config "parameters") with
  | .literal items =>
    match d.resolveItems c.context items with
    | .error _ => none
    | .ok values => some (values.map r.read, [])
  | .derived inner => do
    let (y, asks) ← eval inner []
    return ([y], asks)
  | .absent => some (given, [])

def follow (eval : Value → List δ → Option (δ × List (Ask δ))) (config : Value) (x : δ) :
    Option (δ × List (Ask δ)) :=
  if d.isMapping (d.field config "resultMapping") then eval (d.field config "resultMapping") [x] else some (x, [])

/-- What a call evaluates to, and what is asked for that. `given` stand in for absent
parameters, and `depth` bounds how deep calls are nested. -/
def evaluate : Nat → Value → List δ → Option (δ × List (Ask δ))
  | 0, _, _ => none
  | depth + 1, config, given => do
    let target ← (c.target d config).toOption
    let (params, first) ← r.supply c d (evaluate depth) config given
    let (mapped, second) ← mapFrom d (evaluate depth) (d.field config "parameterMapping") 0 params
    let (y, third) ← follow d (evaluate depth) config (r.answer target.service target.method mapped)
    return (y, first ++ (second ++ .call target.service target.method mapped :: third))

def place (eval : Value → List δ → Option (δ × List (Ask δ))) (config : Value) (params : List δ) :
    Option (List (Ask δ)) := do
  let (mapped, asks) ← mapFrom d eval (d.field config "parameterMapping") 0 params
  return asks ++ [.place config false mapped]

/-- What is asked to hand over a situation whose parameters another call has given. Only the
items of a list are mapped. -/
def arrange (eval : Value → List δ → Option (δ × List (Ask δ))) (config : Value) (y : δ) : Option (List (Ask δ)) :=
  match r.items y, d.items? (d.field config "parameterMapping") with
  | some params, some (_ :: _) => place d eval config params
  | _, _ => some [.place config true [y]]

def materialize (eval : Value → List δ → Option (δ × List (Ask δ))) (config : Value) : Option (List (Ask δ)) :=
  match d.source (d.field config "parameters") with
  | .derived inner => do
    let (y, first) ← eval inner []
    let second ← r.arrange d eval config y
    return first ++ second
  | _ => do
    let (params, _) ← r.supply c d eval config []
    place d eval config params

def execute (entry : Entry) (config : Value) : Option (List δ × List (Ask δ)) :=
  let eval := r.evaluate c d (Coordinator.depthBound d)
  match entry with
  | .transition => do
    let (y, asks) ← eval config []
    return ([y], asks)
  | .state => do
    let asks ← r.materialize c d eval config
    return ([], asks)

variable {r c d}

theorem evaluate_succ {depth : Nat} {config : Value} {given : List δ} {y : δ} {asks : List (Ask δ)} :
    r.evaluate c d (depth + 1) config given = some (y, asks) ↔
      ∃ target params first mapped second third, c.target d config = .ok target ∧
        r.supply c d (r.evaluate c d depth) config given = some (params, first) ∧
        mapFrom d (r.evaluate c d depth) (d.field config "parameterMapping") 0 params = some (mapped, second) ∧
        follow d (r.evaluate c d depth) config (r.answer target.service target.method mapped) = some (y, third) ∧
        asks = first ++ (second ++ .call target.service target.method mapped :: third) := by
  unfold evaluate
  constructor
  · intro evaluated
    obtain ⟨target, aimed, evaluated⟩ := Option.bind_eq_some_iff.mp evaluated
    obtain ⟨⟨params, first⟩, supplied, evaluated⟩ := Option.bind_eq_some_iff.mp evaluated
    obtain ⟨⟨mapped, second⟩, between, evaluated⟩ := Option.bind_eq_some_iff.mp evaluated
    obtain ⟨⟨z, third⟩, last, evaluated⟩ := Option.bind_eq_some_iff.mp evaluated
    cases evaluated
    refine ⟨target, params, first, mapped, second, third, ?_, supplied, between, last, rfl⟩
    cases looked : c.target d config with
    | error fault => simp [looked, Except.toOption] at aimed
    | ok other =>
      rw [looked] at aimed
      cases aimed
      rfl
  · rintro ⟨target, params, first, mapped, second, third, aimed, supplied, between, last, rfl⟩
    rw [aimed]
    refine Option.bind_eq_some_iff.mpr ⟨target, rfl, Option.bind_eq_some_iff.mpr ⟨_, supplied, ?_⟩⟩
    exact Option.bind_eq_some_iff.mpr ⟨_, between, Option.bind_eq_some_iff.mpr ⟨_, last, rfl⟩⟩

theorem mapFrom_cons {eval : Value → List δ → Option (δ × List (Ask δ))} {mapping : Value} {index : Nat} {x : δ}
    {rest zs : List δ} {asks : List (Ask δ)} : mapFrom d eval mapping index (x :: rest) = some (zs, asks) ↔
      ∃ y first ys more, mapItem d eval mapping index x = some (y, first) ∧
        mapFrom d eval mapping (index + 1) rest = some (ys, more) ∧ zs = y :: ys ∧ asks = first ++ more := by
  simp only [mapFrom, Option.bind_eq_bind, Option.bind_eq_some_iff, Prod.exists, Option.pure_def, Option.some.injEq,
    Prod.mk.injEq]
  constructor
  · rintro ⟨y, first, mapped, ys, more, later, rfl, rfl⟩
    exact ⟨y, first, ys, more, mapped, later, rfl, rfl⟩
  · rintro ⟨y, first, ys, more, mapped, later, rfl, rfl⟩
    exact ⟨y, first, mapped, ys, more, later, rfl, rfl⟩

theorem mapFrom_parts {eval : Value → List δ → Option (δ × List (Ask δ))} {mapping : Value} {index : Nat}
    {xs zs : List δ} {asks : List (Ask δ)} (ends : mapFrom d eval mapping index xs = some (zs, asks)) :
    ∃ parts : List (δ × List (Ask δ)), parts.length = xs.length ∧ zs = parts.map Prod.fst ∧ asks = parts.flatMap Prod.snd ∧
      ∀ i x, xs[i]? = some x → ∃ part, parts[i]? = some part ∧ mapItem d eval mapping (index + i) x = some part := by
  induction xs generalizing index zs asks with
  | nil =>
    cases ends
    exact ⟨[], rfl, rfl, rfl, by simp⟩
  | cons x rest ih =>
    obtain ⟨y, first, ys, more, mapped, later, rfl, rfl⟩ := mapFrom_cons.mp ends
    obtain ⟨parts, length, rfl, rfl, each⟩ := ih later
    refine ⟨(y, first) :: parts, by simp [length], rfl, rfl, ?_⟩
    intro i z held
    cases i with
    | zero =>
      cases held
      exact ⟨_, rfl, mapped⟩
    | succ i =>
      obtain ⟨part, found, same⟩ := each i z held
      exact ⟨part, found, by rwa [Nat.add_right_comm] at same⟩

theorem mapFrom_unmapped (eval : Value → List δ → Option (δ × List (Ask δ))) {mapping : Value}
    (unmapped : d.items? mapping = none ∨ d.items? mapping = some []) (index : Nat) (xs : List δ) :
    mapFrom d eval mapping index xs = some (xs, []) := by
  have none (index : Nat) : d.mappedCall? mapping index = none := by
    unfold Store.mappedCall?
    rcases unmapped with same | same <;> simp [same]
  induction xs generalizing index with
  | nil => rfl
  | cons x rest ih =>
    refine mapFrom_cons.mpr ⟨x, [], rest, [], ?_, ih (index + 1), rfl, rfl⟩
    rw [mapItem, none]

theorem exists_mapFrom {eval : Value → List δ → Option (δ × List (Ask δ))} {mapping : Value}
    (ends : ∀ call ∈ d.mappedCalls mapping, ∀ x, ∃ out, eval call [x] = some out) (index : Nat) (xs : List δ) :
    ∃ out, mapFrom d eval mapping index xs = some out := by
  induction xs generalizing index with
  | nil => exact ⟨_, rfl⟩
  | cons x rest ih =>
    obtain ⟨⟨ys, more⟩, later⟩ := ih (index + 1)
    obtain ⟨⟨y, asks⟩, first⟩ : ∃ out, mapItem d eval mapping index x = some out := by
      unfold mapItem
      cases hit : d.mappedCall? mapping index with
      | none => exact ⟨_, rfl⟩
      | some config =>
        obtain ⟨found, isCall⟩ := Option.filter_eq_some_iff.mp hit
        exact ends config (List.mem_filter.mpr ⟨List.mem_of_getElem? found, isCall⟩) x
    exact ⟨_, mapFrom_cons.mpr ⟨y, asks, ys, more, first, later, rfl, rfl⟩⟩

/-- Whether the literal parameters of a configuration can be resolved. -/
def Resolves (c : Coordinator) (d : Store) (config : Value) : Prop :=
  ∀ items, d.source (d.field config "parameters") = .literal items →
    ∃ values, d.resolveItems c.context items = .ok values

theorem exists_supply {eval : Value → List δ → Option (δ × List (Ask δ))} {config : Value} (resolves : Resolves c d config)
    (ends : ∀ call ∈ d.given config, ∀ xs, ∃ out, eval call xs = some out) (given : List δ) :
    ∃ out, r.supply c d eval config given = some out := by
  unfold supply
  split
  next items literal =>
    obtain ⟨values, resolved⟩ := resolves items literal
    exact ⟨_, by rw [resolved]⟩
  next inner derived =>
    obtain ⟨⟨y, asks⟩, ended⟩ := ends inner (Store.mem_given_derived derived) []
    exact ⟨_, by rw [ended]; rfl⟩
  · exact ⟨_, rfl⟩

/-- A call that passes its check comes to an end, if its literal parameters can be resolved. -/
theorem exists_evaluate {depth : Nat} {config : Value} (passed : c.check d depth config = .ok ())
    (resolves : ∀ call, d.Leads config call → Resolves c d call) (given : List δ) :
    ∃ out, r.evaluate c d depth config given = some out := by
  induction depth generalizing config given with
  | zero => cases passed
  | succ depth ih =>
    obtain ⟨⟨target, aimed⟩, below⟩ := Coordinator.check_ok.mp passed
    have ends (call : Value) (part : call ∈ d.parts config) (xs : List δ) :
        ∃ out, r.evaluate c d depth call xs = some out :=
      ih (below call part) (fun inner leads => resolves inner (.part part leads)) xs
    obtain ⟨⟨params, first⟩, supplied⟩ := exists_supply (r := r) (resolves config (.self config))
      (fun call member xs => ends call (Session.mem_given_parts member) xs) given
    have parts : ∀ call ∈ d.mappedCalls (d.field config "parameterMapping"), ∀ x, ∃ out, r.evaluate c d depth call [x] = some out :=
      fun call member x => ends call (Session.mem_given_parts (Session.mem_mappedCalls_given member)) [x]
    obtain ⟨⟨mapped, second⟩, between⟩ := exists_mapFrom parts 0 params
    obtain ⟨⟨y, third⟩, last⟩ : ∃ out, follow d (r.evaluate c d depth) config
        (r.answer target.service target.method mapped) = some out := by
      unfold follow
      split
      next mapping =>
        exact ends _ (List.mem_append_right _ (List.mem_filter.mpr ⟨List.mem_singleton_self _, mapping⟩)) _
      · exact ⟨_, rfl⟩
    exact ⟨(y, _), evaluate_succ.mpr ⟨target, params, first, mapped, second, third, aimed, supplied, between, last, rfl⟩⟩

theorem exists_place {eval : Value → List δ → Option (δ × List (Ask δ))} {config : Value}
    (ends : ∀ call ∈ d.given config, ∀ xs, ∃ out, eval call xs = some out) (params : List δ) :
    ∃ asks, place d eval config params = some asks := by
  obtain ⟨⟨mapped, asks⟩, ended⟩ := exists_mapFrom
    (fun call member x => ends call (Session.mem_mappedCalls_given member) [x]) 0 params
  exact ⟨_, by rw [place, ended]; rfl⟩

theorem exists_materialize {eval : Value → List δ → Option (δ × List (Ask δ))} {config : Value}
    (resolves : Resolves c d config) (ends : ∀ call ∈ d.given config, ∀ xs, ∃ out, eval call xs = some out) :
    ∃ asks, r.materialize c d eval config = some asks := by
  unfold materialize
  split
  next inner derived =>
    obtain ⟨⟨y, first⟩, ended⟩ := ends inner (Store.mem_given_derived derived) []
    obtain ⟨second, arranged⟩ : ∃ asks, r.arrange d eval config y = some asks := by
      unfold arrange
      split
      · exact exists_place ends _
      · exact ⟨_, rfl⟩
    exact ⟨first ++ second, Option.bind_eq_some_iff.mpr ⟨_, ended, Option.bind_eq_some_iff.mpr ⟨_, arranged, rfl⟩⟩⟩
  · obtain ⟨⟨params, first⟩, supplied⟩ := exists_supply (r := r) resolves ends []
    obtain ⟨asks, placed⟩ := exists_place ends params
    exact ⟨asks, Option.bind_eq_some_iff.mpr ⟨_, supplied, placed⟩⟩

theorem exists_execute {entry : Entry} {config : Value}
    (passed : ∀ root ∈ entry.roots d config, c.checkCall d root = .ok ()) (own : Resolves c d config)
    (resolves : ∀ call, Session.Asks d entry config call → Resolves c d call) :
    ∃ values asks, r.execute c d entry config = some (values, asks) := by
  have ends (root : Value) (isRoot : root ∈ entry.roots d config) (given : List δ) :
      ∃ out, r.evaluate c d (Coordinator.depthBound d) root given = some out :=
    exists_evaluate (passed root isRoot) (fun call leads => resolves call ⟨root, isRoot, leads⟩) given
  cases entry with
  | transition =>
    obtain ⟨⟨y, asks⟩, ended⟩ := ends config (List.mem_singleton_self config) []
    exact ⟨[y], asks, Option.bind_eq_some_iff.mpr ⟨_, ended, rfl⟩⟩
  | state =>
    obtain ⟨asks, ended⟩ := exists_materialize own ends
    exact ⟨[], asks, Option.bind_eq_some_iff.mpr ⟨_, ended, rfl⟩⟩

end Reading

def Deed.ask? {δ : Type} (read : Value → δ) : Deed → Option (Ask δ)
  | .lookup _ _ => none
  | .call _ target params _ => some (.call target.service target.method (params.map read))
  | .place config whole values _ => some (.place config whole (values.map read))

end Interaction
