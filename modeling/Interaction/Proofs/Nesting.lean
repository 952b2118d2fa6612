import Interaction.Validation

/-! Calls are nested in one another. Configurations are graphs in a store, so a chain of
nested calls can be endless; if it is not, the size of the store bounds its length, and
the calls can be listed, each one before those nested in it. -/

namespace Interaction

namespace Store

theorem items?_of_isMapping {s : Store} {v : Value} (mapping : s.isMapping v = true) : s.items? v = none := by
  cases v with
  | scalar x => rfl
  | tuple items => cases mapping
  | ref place =>
    cases held : s.cells[place]? with
    | none => simp [items?, cell?, held]
    | some cell => cases cell <;> simp_all [isMapping, entries?, items?, cell?]

theorem source_of_isMapping {s : Store} {v : Value} (mapping : s.isMapping v = true) :
    s.source v = .derived v := by
  simp only [source, items?_of_isMapping mapping, mapping, if_true]

theorem source_ne_derived {s : Store} {v : Value} (other : s.isMapping v = false) (call : Value) :
    s.source v ≠ .derived call := by
  unfold source
  cases s.items? v <;> simp [other]

theorem mappedCalls_mapping {s : Store} {mapping call : Value} (member : call ∈ s.mappedCalls mapping) :
    s.isMapping call = true :=
  (List.mem_filter.mp member).2

/-- The calls for the parameters of a configuration: the one that gives them, and
those that map them. -/
def given (s : Store) (config : Value) : List Value :=
  [s.field config "parameters"].filter s.isMapping ++
    s.mappedCalls (s.field config "parameterMapping")

theorem mem_given_derived {s : Store} {config inner : Value} (derived : s.source (s.field config "parameters") = .derived inner) :
    inner ∈ s.given config := by
  unfold source at derived
  split at derived
  · cases derived
  · split at derived <;> cases derived
    next mapping => exact List.mem_append_left _ (List.mem_filter.mpr ⟨List.mem_singleton_self _, mapping⟩)

/-- The calls nested in a call, one level down: those for its parameters, and the one
that maps its result. -/
def parts (s : Store) (config : Value) : List Value :=
  s.given config ++ [s.field config "resultMapping"].filter s.isMapping

theorem field_of_not_mapping {s : Store} {config : Value} (other : s.isMapping config = false) (name : String) :
    s.field config name = .null := by
  have absent : s.entries? config = none := by simpa only [isMapping, Option.isSome_eq_false_iff, Option.isNone_iff_eq_none] using other
  simp [field, get, absent, Entries.get?]

theorem parts_mapping {s : Store} {config part : Value} (member : part ∈ s.parts config) :
    s.isMapping config = true := by
  cases mapping : s.isMapping config with
  | true => rfl
  | false =>
    have null : s.isMapping .null = false := rfl
    have empty : s.mappedCalls .null = [] := rfl
    simp [parts, given, field_of_not_mapping mapping, null, empty] at member

inductive Leads (s : Store) : Value → Value → Prop where
  | self (config : Value) : Leads s config config
  | part {config part inner : Value} (member : part ∈ s.parts config) (below : Leads s part inner) :
      Leads s config inner

theorem Leads.trans {s : Store} {config outer inner : Value} (first : s.Leads config outer)
    (last : s.Leads outer inner) : s.Leads config inner := by
  induction first with
  | self => exact last
  | part member _ ih => exact .part member (ih last)

/-- Whether fewer than `depth` calls below a call can be nested in one another. -/
def Shallow (s : Store) : Nat → Value → Prop
  | 0, _ => False
  | depth + 1, config => ∀ part ∈ s.parts config, s.Shallow depth part

instance decidableShallow (s : Store) : (depth : Nat) → (config : Value) → Decidable (s.Shallow depth config)
  | 0, _ => inferInstanceAs (Decidable False)
  | depth + 1, config =>
    have := decidableShallow s depth
    inferInstanceAs (Decidable (∀ part ∈ s.parts config, s.Shallow depth part))

def Finite (s : Store) (config : Value) : Prop :=
  ∃ depth, s.Shallow depth config

/-- A call and all calls nested in it, each one before its parts, down to a depth. -/
def preorder (s : Store) : Nat → Value → List Value
  | 0, _ => []
  | depth + 1, config => config :: (s.parts config).flatMap (s.preorder depth)

def calls (s : Store) (config : Value) : List Value :=
  s.preorder (Coordinator.depthBound s) config

theorem Shallow.mem_preorder {s : Store} {depth : Nat} {config inner : Value} (shallow : s.Shallow depth config) :
    inner ∈ s.preorder depth config ↔ s.Leads config inner := by
  induction depth generalizing config with
  | zero => cases shallow
  | succ depth ih =>
    simp only [preorder, List.mem_cons, List.mem_flatMap]
    constructor
    · rintro (rfl | ⟨part, member, below⟩)
      · exact .self _
      · exact .part member ((ih (shallow part member)).mp below)
    · intro leads
      cases leads with
      | self => exact Or.inl rfl
      | part member below => exact Or.inr ⟨_, member, (ih (shallow _ member)).mpr below⟩

theorem Shallow.acyclic {s : Store} {depth : Nat} {config part : Value} (shallow : s.Shallow depth config)
    (member : part ∈ s.parts config) : ¬ s.Leads part config := by
  induction depth generalizing config part with
  | zero => cases shallow
  | succ depth ih =>
    intro back
    cases back with
    | self => exact ih (shallow _ member) member (.self _)
    | part deeper below => exact ih (shallow _ member) deeper (below.trans (.part member (.self _)))

/-- The places of the calls above a call are distinct, so the cells that are left bound
the chains below it. -/
theorem Shallow.within_store {s : Store} {depth : Nat} {config : Value} (shallow : s.Shallow depth config)
    (above : List Nat) (distinct : above.Nodup) (inside : ∀ place ∈ above, place < s.cells.size)
    (leads : ∀ place ∈ above, ∃ part ∈ s.parts (.ref place), s.Leads part config)
    (acyclic : ∀ place ∈ above, ∀ part ∈ s.parts (.ref place), ¬ s.Leads part (.ref place))
    (left : Nat) (count : left + above.length = s.cells.size + 1) : s.Shallow left config := by
  induction depth generalizing config above left with
  | zero => cases shallow
  | succ depth ih =>
    have few : above.length ≤ s.cells.size := by
      have bounded : above.length ≤ (List.range s.cells.size).length :=
        distinct.length_le_of_subset fun place member => List.mem_range.mpr (inside place member)
      simpa using bounded
    obtain ⟨left, rfl⟩ := Nat.exists_eq_add_of_le' (show 1 ≤ left by omega)
    intro part member
    have mapping := parts_mapping member
    obtain ⟨place, rfl, within⟩ : ∃ place, config = .ref place ∧ place < s.cells.size := by
      cases config with
      | scalar x => cases mapping
      | tuple items => cases mapping
      | ref place =>
        refine ⟨place, rfl, ?_⟩
        apply Classical.byContradiction
        intro outside
        simp [isMapping, entries?, cell?, Array.getElem?_eq_none (Nat.le_of_not_lt outside)] at mapping
    have fresh : place ∉ above := by
      intro again
      obtain ⟨first, below, back⟩ := leads place again
      exact acyclic place again first below back
    apply ih (shallow part member) (place :: above) (List.nodup_cons.mpr ⟨fresh, distinct⟩)
    · rintro other (_ | ⟨_, other⟩)
      · exact within
      · exact inside _ other
    · rintro other (_ | ⟨_, other⟩)
      · exact ⟨part, member, .self _⟩
      · obtain ⟨first, below, back⟩ := leads _ other
        exact ⟨first, below, back.trans (.part member (.self _))⟩
    · rintro other (_ | ⟨_, other⟩) first below
      · exact shallow.acyclic below
      · exact acyclic _ other first below
    · simp only [List.length_cons]
      omega

theorem Finite.shallow {s : Store} {config : Value} (finite : s.Finite config) :
    s.Shallow (Coordinator.depthBound s) config := by
  obtain ⟨depth, shallow⟩ := finite
  exact shallow.within_store [] List.nodup_nil (by simp) (by simp) (by simp) _ rfl

theorem Finite.mem_calls {s : Store} {config inner : Value} (finite : s.Finite config) :
    inner ∈ s.calls config ↔ s.Leads config inner :=
  finite.shallow.mem_preorder

end Store

end Interaction
