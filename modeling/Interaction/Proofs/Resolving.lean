import Interaction.Document.Loader

/-! What the rules of loaders are. The lists that a loader adds rules to are its own, so no loader changes what another
one decides, and the loader of models decides as that of configurations does but for truth values. -/

namespace Interaction.Document

namespace Loaders

variable {l m : Loaders} {loader other : Loader} {rule : Rule} {front : Front} {table copied : Table} {place : Nat}
  {schema : Schema}

/-- Tables lead to lists that are there, and share none of them. -/
structure Apart (l : Loaders) : Prop where
  inside : ∀ {loader table entry}, l.tables.lookup loader = some table → entry ∈ table → entry.2 < l.lists.length
  unshared : ∀ {loader other table table' entry entry'}, l.tables.lookup loader = some table →
    l.tables.lookup other = some table' → entry ∈ table → entry' ∈ table' → entry.2 = entry'.2 →
    loader = other ∧ entry.1 = entry'.1

/-- The rules of a loader that has a table of its own. -/
def ownRules? (l : Loaders) (loader : Loader) : Option Schema :=
  (l.tables.lookup loader).map l.rulesOf

/-- A loader decides by its own rules, or by those of the first that it goes back to. -/
theorem rules_eq (l : Loaders) (loader : Loader) :
    l.rules loader = ((line loader).findSome? l.ownRules?).getD fun _ => [] := by
  unfold rules table
  induction line loader with
  | nil => rfl
  | cons first rest ih =>
    simp only [List.findSome?_cons, ownRules?]
    cases l.tables.lookup first with
    | none => exact ih
    | some table => rfl

theorem lookup_mem {α β : Type} [BEq α] [LawfulBEq α] {a : α} {b : β} {entries : List (α × β)}
    (found : entries.lookup a = some b) : (a, b) ∈ entries := by
  obtain ⟨before, after, whole, -⟩ := List.lookup_eq_some_iff.mp found
  rw [whole]
  simp

theorem list_grown {more : List (List Rule)} (grown : m.lists = l.lists ++ more) (inside : place < l.lists.length) :
    m.list place = l.list place := by
  simp only [list, grown, List.getElem?_append_left inside]

theorem rulesOf_congr (same : ∀ entry ∈ table, m.list entry.2 = l.list entry.2) : m.rulesOf table = l.rulesOf table := by
  funext front
  unfold rulesOf
  cases found : table.lookup front with
  | none => rfl
  | some place => exact same _ (lookup_mem found)

/-! ### Copies -/

/-- A table whose lists are new, and were made from those of another table. -/
structure Copied (l : Loaders) (change : List Rule → List Rule) (table : Table) (m : Loaders) (copied : Table) : Prop where
  tables : m.tables = l.tables
  grown : ∃ more, m.lists = l.lists ++ more
  fresh : ∀ entry ∈ copied, l.lists.length ≤ entry.2 ∧ entry.2 < m.lists.length
  unshared : ∀ entry ∈ copied, ∀ entry' ∈ copied, entry.2 = entry'.2 → entry.1 = entry'.1
  rules : ∀ front, m.rulesOf copied front = ((table.lookup front).map fun place => change (l.list place)).getD []

theorem copy_copied (l : Loaders) (change : List Rule → List Rule) (table : Table)
    (inside : ∀ entry ∈ table, entry.2 < l.lists.length) :
    Copied l change table (l.copy change table).1 (l.copy change table).2 := by
  -- A copy takes the next place, so those of the rest of the table lie beyond it.
  induction table generalizing l with
  | nil => exact ⟨rfl, ⟨[], by simp [copy]⟩, by simp [copy], by simp [copy], fun _ => rfl⟩
  | cons entry rest ih =>
    obtain ⟨front, place⟩ := entry
    have longer : (l.newList (change (l.list place))).1.lists = l.lists ++ [change (l.list place)] := rfl
    have copied := ih (l.newList (change (l.list place))).1 fun entry member => by
      have within := inside entry (List.mem_cons_of_mem _ member)
      simp only [longer, List.length_append, List.length_singleton]
      omega
    obtain ⟨more, grown⟩ := copied.grown
    have size : (l.newList (change (l.list place))).1.lists.length = l.lists.length + 1 := by simp [longer]
    have total : ((l.newList (change (l.list place))).1.copy change rest).1.lists.length =
        l.lists.length + 1 + more.length := by rw [grown, List.length_append, size]
    show Copied l change ((front, place) :: rest) ((l.newList (change (l.list place))).1.copy change rest).1
      ((front, l.lists.length) :: ((l.newList (change (l.list place))).1.copy change rest).2)
    refine ⟨copied.tables, ⟨[change (l.list place)] ++ more, by rw [grown, longer, List.append_assoc]⟩, ?_, ?_, ?_⟩
    · intro entry member
      rcases List.mem_cons.mp member with rfl | later
      · exact ⟨Nat.le_refl _, by omega⟩
      · have fresh := copied.fresh entry later
        omega
    · intro entry member entry' member' same
      rcases List.mem_cons.mp member with rfl | later <;> rcases List.mem_cons.mp member' with rfl | later'
      · rfl
      · have fresh := copied.fresh entry' later'
        omega
      · have fresh := copied.fresh entry later
        omega
      · exact copied.unshared entry later entry' later' same
    · intro asked
      by_cases same : asked = front
      · have new : ((l.newList (change (l.list place))).1.copy change rest).1.list l.lists.length = change (l.list place) := by
          rw [list, grown, longer]
          simp
        unfold rulesOf
        rw [same, List.lookup_cons_self, List.lookup_cons_self]
        exact new
      · have differs : (asked == front) = false := beq_eq_false_iff_ne.mpr same
        have others := copied.rules asked
        unfold rulesOf at others ⊢
        rw [List.lookup_cons, List.lookup_cons, differs]
        refine others.trans ?_
        cases found : rest.lookup asked with
        | none => rfl
        | some old =>
          have within := inside _ (List.mem_cons_of_mem _ (lookup_mem found))
          exact congrArg change (list_grown longer within)

/-! ### Tables of one's own -/

theorem lookup_assign (l : Loaders) (loader : Loader) (table : Table) (other : Loader) :
    (l.assign loader table).tables.lookup other = if other = loader then some table else l.tables.lookup other := by
  unfold assign
  by_cases same : other = loader
  · rw [if_pos same, same, List.lookup_cons_self]
  · rw [if_neg same, List.lookup_cons, beq_eq_false_iff_ne.mpr same]

/-- Loaders that differ from others in the rules of one loader. -/
structure Alters (l : Loaders) (loader : Loader) (schema : Schema) (m : Loaders) : Prop where
  apart : m.Apart
  own : m.ownRules? loader = some schema
  others : ∀ other, other ≠ loader → m.ownRules? other = l.ownRules? other

theorem Alters.trans {n : Loaders} {later : Schema} (first : l.Alters loader schema m) (last : m.Alters loader later n) :
    l.Alters loader later n :=
  ⟨last.apart, last.own, fun other differs => (last.others other differs).trans (first.others other differs)⟩

/-- A loader that does not go back to the one that is altered decides as before. -/
theorem Alters.kept (alters : l.Alters loader schema m) (unrelated : loader ∉ line other) : m.rules other = l.rules other := by
  have same (loaders : List Loader) (absent : loader ∉ loaders) :
      loaders.findSome? m.ownRules? = loaders.findSome? l.ownRules? := by
    induction loaders with
    | nil => rfl
    | cons first rest ih =>
      obtain ⟨differs, absent⟩ := not_or.mp (mt List.mem_cons.mpr absent)
      rw [List.findSome?_cons, List.findSome?_cons, alters.others first (Ne.symm differs), ih absent]
  rw [rules_eq, rules_eq, same _ unrelated]

theorem Apart.mem_table (apart : l.Apart) (loader : Loader) : ∀ entry ∈ l.table loader, entry.2 < l.lists.length := by
  intro entry member
  unfold table at member
  cases found : (line loader).findSome? fun loader => l.tables.lookup loader with
  | none => simp [found] at member
  | some table =>
    rw [found] at member
    obtain ⟨owner, -, owned⟩ := List.exists_of_findSome?_eq_some found
    exact apart.inside owned member

theorem Apart.assign (apart : l.Apart) {change : List Rule → List Rule} (made : Copied l change table m copied)
    (loader : Loader) : l.Alters loader (m.rulesOf copied) (m.assign loader copied) := by
  obtain ⟨more, grown⟩ := made.grown
  have lookup (other : Loader) : (m.assign loader copied).tables.lookup other =
      if other = loader then some copied else l.tables.lookup other := by
    rw [lookup_assign, made.tables]
  refine ⟨⟨?_, ?_⟩, ?_, ?_⟩
  · intro other table entry found member
    rw [lookup] at found
    split at found
    next => cases found; exact (made.fresh entry member).2
    next =>
      have inside := apart.inside found member
      show entry.2 < m.lists.length
      rw [grown, List.length_append]
      omega
  · intro first last table table' entry entry' found found' member member' same
    rw [lookup] at found found'
    split at found <;> split at found'
    next equal equal' =>
      cases found
      cases found'
      exact ⟨equal.trans equal'.symm, made.unshared entry member entry' member' same⟩
    next =>
      cases found
      have fresh := made.fresh entry member
      have inside := apart.inside found' member'
      omega
    next =>
      cases found'
      have fresh := made.fresh entry' member'
      have inside := apart.inside found member
      omega
    next => exact apart.unshared found found' member member' same
  · simp only [ownRules?, lookup, if_true, Option.map_some]
    rfl
  · intro other differs
    simp only [ownRules?, lookup, if_neg differs]
    cases found : l.tables.lookup other with
    | none => rfl
    | some table =>
      exact congrArg some (rulesOf_congr fun entry member => list_grown grown (apart.inside found member))

theorem claim_own {schema : Schema} (own : l.ownRules? loader = some schema) : l.claim loader = l := by
  obtain ⟨table, found, -⟩ := Option.map_eq_some_iff.mp own
  simp only [claim, found]

theorem claim_alters (apart : l.Apart) (loader : Loader) : l.Alters loader (l.rules loader) (l.claim loader) := by
  cases found : l.tables.lookup loader with
  | some table =>
    have own : l.ownRules? loader = some (l.rulesOf table) := by simp only [ownRules?, found, Option.map_some]
    have same : l.rules loader = l.rulesOf table := by
      rw [rules_eq]
      cases loader <;> simp only [line, List.findSome?_cons, own, Option.getD_some]
    rw [claim_own own]
    exact ⟨apart, same ▸ own, fun _ _ => rfl⟩
  | none =>
    have made := copy_copied l id (l.table loader) (apart.mem_table loader)
    have same : (l.copy id (l.table loader)).1.rulesOf (l.copy id (l.table loader)).2 = l.rules loader := by
      funext front
      rw [made.rules, rules, rulesOf]
      cases (l.table loader).lookup front <;> rfl
    have result : l.claim loader = (l.copy id (l.table loader)).1.assign loader (l.copy id (l.table loader)).2 := by
      simp only [claim, found]
    rw [result, ← same]
    exact apart.assign made loader

/-! ### Rules that are added -/

/-- A rule more for one front. -/
def withRule (rule : Rule) (schema : Schema) (front : Front) : Schema := fun f =>
  if f = front then schema f ++ [rule] else schema f

theorem list_modify (l : Loaders) (rule : Rule) (inside : place < l.lists.length) (other : Nat) :
    ({ l with lists := l.lists.modify place (· ++ [rule]) } : Loaders).list other =
      if place = other then l.list other ++ [rule] else l.list other := by
  simp only [list, List.getElem?_modify]
  by_cases same : place = other
  · subst same
    simp [inside]
  · simp [same]

theorem table_own (found : l.tables.lookup loader = some table) : l.table loader = table := by
  unfold Loaders.table
  cases loader <;> simp only [line, List.findSome?_cons, found, Option.getD_some]

theorem modify_alters (apart : l.Apart) (found : l.tables.lookup loader = some table)
    (entered : table.lookup front = some place) (rule : Rule) : l.Alters loader (withRule rule (l.rulesOf table) front)
      { l with lists := l.lists.modify place (· ++ [rule]) } := by
  have member := lookup_mem entered
  have listed := list_modify l rule (apart.inside found member)
  generalize same : ({ l with lists := l.lists.modify place (· ++ [rule]) } : Loaders) = m at listed ⊢
  have tables : m.tables = l.tables := by rw [← same]
  have size : m.lists.length = l.lists.length := by rw [← same, List.length_modify]
  refine ⟨⟨?_, ?_⟩, ?_, ?_⟩
  · intro other table entry found member
    rw [size]
    exact apart.inside (tables ▸ found) member
  · intro first last table table' entry entry' found found'
    exact apart.unshared (tables ▸ found) (tables ▸ found')
  · simp only [ownRules?, tables, found, Option.map_some, Option.some.injEq]
    funext f
    unfold withRule rulesOf
    cases looked : table.lookup f with
    | none =>
      have differs : f ≠ front := by
        rintro rfl
        rw [entered] at looked
        cases looked
      simp [differs]
    | some p =>
      dsimp only
      rw [listed]
      by_cases equal : f = front
      · have same : place = p := by
          rw [equal, entered] at looked
          exact Option.some.inj looked
        rw [if_pos same, if_pos equal]
      · have differs : place ≠ p := by
          rintro rfl
          exact equal (apart.unshared found found (lookup_mem looked) member rfl).2
        rw [if_neg differs, if_neg equal]
  · intro other differs
    simp only [ownRules?, tables]
    cases kept : l.tables.lookup other with
    | none => rfl
    | some others =>
      refine congrArg some (rulesOf_congr fun entry among => ?_)
      rw [listed, if_neg]
      intro shared
      exact differs (apart.unshared kept found among member shared.symm).1

/-- A rule is put into a list of its own for a front that a table has none for. -/
theorem append_alters (apart : l.Apart) (found : l.tables.lookup loader = some table)
    (entered : table.lookup front = none) (rule : Rule) : l.Alters loader (withRule rule (l.rulesOf table) front)
      ((l.newList [rule]).1.assign loader (table ++ [(front, l.lists.length)])) := by
  have lookup (other : Loader) :
      ((l.newList [rule]).1.assign loader (table ++ [(front, l.lists.length)])).tables.lookup other =
        if other = loader then some (table ++ [(front, l.lists.length)]) else l.tables.lookup other :=
    lookup_assign ..
  have grown : ((l.newList [rule]).1.assign loader (table ++ [(front, l.lists.length)])).lists = l.lists ++ [[rule]] := rfl
  generalize (l.newList [rule]).1.assign loader (table ++ [(front, l.lists.length)]) = m at lookup grown ⊢
  have size : m.lists.length = l.lists.length + 1 := by rw [grown, List.length_append, List.length_singleton]
  have old {other : Loader} {others : Table} {entry : Front × Nat} (kept : m.tables.lookup other = some others)
      (among : entry ∈ others) : (other = loader ∧ entry = (front, l.lists.length)) ∨
        ∃ before, l.tables.lookup other = some before ∧ entry ∈ before := by
    rw [lookup] at kept
    split at kept
    next same =>
      cases kept
      rcases List.mem_append.mp among with among | new
      · exact .inr ⟨table, same ▸ found, among⟩
      · exact .inl ⟨same, List.mem_singleton.mp new⟩
    next => exact .inr ⟨others, kept, among⟩
  refine ⟨⟨?_, ?_⟩, ?_, ?_⟩
  · intro other others entry kept among
    rw [size]
    obtain ⟨-, rfl⟩ | ⟨before, kept, among⟩ := old kept among
    · exact Nat.lt_succ_self _
    · exact Nat.lt_succ_of_lt (apart.inside kept among)
  · intro first last firsts lasts entry entry' kept kept' among among' same
    obtain ⟨equal, new⟩ | ⟨before, kept, among⟩ := old kept among <;>
      obtain ⟨equal', new'⟩ | ⟨before', kept', among'⟩ := old kept' among'
    · exact ⟨equal.trans equal'.symm, by rw [new, new']⟩
    · have inside := apart.inside kept' among'
      rw [new] at same
      omega
    · have inside := apart.inside kept among
      rw [new'] at same
      omega
    · exact apart.unshared kept kept' among among' same
  · simp only [ownRules?, lookup, if_true, Option.map_some, Option.some.injEq]
    funext f
    unfold withRule rulesOf
    rw [List.lookup_append]
    cases looked : table.lookup f with
    | some p =>
      have differs : f ≠ front := by
        rintro rfl
        rw [entered] at looked
        cases looked
      rw [if_neg differs]
      exact list_grown grown (apart.inside found (lookup_mem looked))
    | none =>
      by_cases equal : f = front
      · simp [equal, list, grown]
      · rw [List.lookup_cons, beq_eq_false_iff_ne.mpr equal, if_neg equal]
        rfl
  · intro other differs
    simp only [ownRules?, lookup, if_neg differs]
    cases kept : l.tables.lookup other with
    | none => rfl
    | some others => exact congrArg some (rulesOf_congr fun entry among => list_grown grown (apart.inside kept among))

theorem enter_alters (apart : l.Apart) (own : l.ownRules? loader = some schema) (rule : Rule) (front : Front) :
    l.Alters loader (withRule rule schema front) (enter loader rule l front) := by
  obtain ⟨table, found, rfl⟩ := Option.map_eq_some_iff.mp own
  have same : (l.newList [rule]).1.table loader = table := table_own found
  unfold enter
  rw [table_own found]
  cases entered : table.lookup front with
  | some place => exact modify_alters apart found entered rule
  | none =>
    dsimp only
    rw [same]
    exact append_alters apart found entered rule

theorem enterAll_alters (apart : l.Apart) (own : l.ownRules? loader = some schema) (rule : Rule) {fronts : List Front}
    (distinct : fronts.Nodup) : l.Alters loader (fun f => schema f ++ if f ∈ fronts then [rule] else [])
      (fronts.foldl (enter loader rule) l) := by
  induction fronts generalizing l schema with
  | nil => exact ⟨apart, by simpa using own, fun _ _ => rfl⟩
  | cons front rest ih =>
    obtain ⟨absent, distinct⟩ := List.nodup_cons.mp distinct
    have first := enter_alters apart own rule front
    have whole := first.trans (ih first.apart first.own distinct)
    have same : (fun f => withRule rule schema front f ++ if f ∈ rest then [rule] else []) =
        fun f => schema f ++ if f ∈ front :: rest then [rule] else [] := by
      funext f
      unfold withRule
      by_cases equal : f = front
      · simp [equal, absent]
      · simp [equal]
    rwa [same] at whole

/-- A rule that is added counts for its fronts, after the others, and for one loader only. -/
theorem add_alters (apart : l.Apart) (loader : Loader) (rule : Rule) {fronts : List Front} (distinct : fronts.Nodup) :
    l.Alters loader (fun f => l.rules loader f ++ if f ∈ fronts then [rule] else []) (l.add loader rule fronts) := by
  have claimed := claim_alters apart loader
  exact claimed.trans (enterAll_alters claimed.apart claimed.own rule distinct)

theorem rules_own (own : l.ownRules? loader = some schema) : l.rules loader = schema := by
  rw [rules_eq]
  cases loader <;> simp only [line, List.findSome?_cons, own, Option.getD_some]

/-! ### The loaders of the program -/

/-- The rules of the format for the texts that begin in one way. -/
def formatRules (entries : List (Rule × List Front)) : Schema := fun f =>
  (entries.filter fun entry => f ∈ entry.2).map (·.1)

theorem addAll_rules (entries : List (Rule × List Front)) (distinct : ∀ entry ∈ entries, entry.2.Nodup) (apart : l.Apart) :
    let m := entries.foldl (fun l (rule, fronts) => l.add .basic rule fronts) l
    m.Apart ∧ (∀ f, m.rules .basic f = l.rules .basic f ++ formatRules entries f) ∧
      ∀ other, other ≠ .basic → m.ownRules? other = l.ownRules? other := by
  induction entries generalizing l with
  | nil => exact ⟨apart, fun f => (List.append_nil _).symm, fun _ _ => rfl⟩
  | cons entry rest ih =>
    have added := add_alters apart .basic entry.1 (distinct _ List.mem_cons_self)
    obtain ⟨apart', rules, others⟩ := ih (fun entry later => distinct entry (List.mem_cons_of_mem _ later)) added.apart
    refine ⟨apart', fun f => (rules f).trans ?_, fun other differs => (others other differs).trans (added.others other differs)⟩
    rw [rules_own added.own, List.append_assoc]
    by_cases about : f ∈ entry.2
    · simp [formatRules, about]
    · simp [formatRules, about]

theorem standard_distinct : ∀ entry ∈ Schema.standard, entry.2.Nodup := by
  decide

theorem standard_rules : standard.Apart ∧ (∀ f, standard.rules .config f = formatRules Schema.standard f) := by
  have empty : ({} : Loaders).Apart := ⟨by simp, by simp⟩
  obtain ⟨apart, rules, others⟩ := addAll_rules Schema.standard standard_distinct empty
  refine ⟨apart, fun f => ?_⟩
  have inherits : standard.rules .config = standard.rules .basic := by
    rw [rules_eq, rules_eq]
    simp only [line, List.findSome?_cons, show standard.ownRules? .config = none from others .config (by decide)]
  rw [inherits]
  exact rules f

/-- What the loader of models decides by, once it has its rules: the other rules of configurations, and its own
for truth values. The loaders that were there decide as before. -/
theorem withModel_rules (apart : l.Apart) :
    l.withModel.rules .basic = l.rules .basic ∧ l.withModel.rules .config = l.rules .config ∧
      ∀ f, l.withModel.rules .model f = (l.rules .config f).filter (·.tag ≠ "bool") ++
        if f ∈ Schema.fronts "tTfF" then [Schema.boolRule ["true", "True", "TRUE", "false", "False", "FALSE"]] else [] := by
  have made := copy_copied l (·.filter (·.tag ≠ "bool")) (l.table .config) (apart.mem_table .config)
  have assigned := apart.assign made .model
  have distinct : (Schema.fronts "tTfF").Nodup := by decide
  have altered := assigned.trans (add_alters assigned.apart .model
    (Schema.boolRule ["true", "True", "TRUE", "false", "False", "FALSE"]) distinct)
  refine ⟨altered.kept (by decide), altered.kept (by decide), fun f => ?_⟩
  rw [rules_own (show l.withModel.ownRules? .model = _ from altered.own), rules_own assigned.own]
  dsimp only
  rw [made.rules, rules, rulesOf]
  cases (l.table .config).lookup f <;> rfl

end Loaders

end Interaction.Document
