import Interaction.Proofs.Keys
import Interaction.Proofs.Yielding
import Interaction.Settings

/-! Merging a document into the default settings. They take up what the document says of their own and pass over
names that nothing has, as long as it says of each section what its settings are, and does not name what sections
and settings have besides. -/

namespace Interaction

namespace Entries

variable {entries : Entries} {name : String} {v : Value}

theorem get?_cons_text (name : String) (v : Value) (entries : Entries) (key : String) :
    Entries.get? ((.text name, v) :: entries) (.text key) = if name = key then some v else entries.get? (.text key) := by
  unfold get?
  rw [List.find?_cons]
  split
  next fits => rw [if_pos (Value.sameKey_texts.mp fits)]; rfl
  next differs => rw [if_neg fun equal => by simp [Value.sameKey_texts.mpr equal] at differs]

theorem Distinct.fresh (distinct : Distinct ((.text name, v) :: entries)) : entries.get? (.text name) = none := by
  unfold get?
  rw [Option.map_eq_none_iff, List.find?_eq_none]
  intro entry member fits
  have apart := (List.pairwise_cons.mp distinct).1 entry member
  rw [Value.sameKey_text fits, Value.text_sameKey] at apart
  cases apart

theorem get?_names (pairs : List (String × Value)) (name : String) :
    Entries.get? (pairs.map fun (name, v) => (.text name, v)) (.text name) = pairs.lookup name := by
  induction pairs with
  | nil => rfl
  | cons pair rest ih =>
    rw [List.map_cons, get?_cons_text, List.lookup_cons, ih]
    by_cases same : pair.1 = name
    · simp [same]
    · rw [if_neg same, show (name == pair.1) = false from beq_eq_false_iff_ne.mpr (Ne.symm same)]

theorem distinct_names {pairs : List (String × Value)} (distinct : (pairs.map (·.1)).Nodup) :
    Distinct (pairs.map fun (name, v) => (.text name, v)) := by
  refine List.pairwise_map.mpr ((List.pairwise_map.mp distinct).imp fun differs => ?_)
  exact Bool.eq_false_iff.mpr (mt Value.sameKey_texts.mp differs)

theorem get?_mem (distinct : entries.Distinct) (member : (.text name, v) ∈ entries) : entries.get? (.text name) = some v := by
  induction entries with
  | nil => cases member
  | cons entry rest ih =>
    obtain ⟨apart, distinct⟩ := List.pairwise_cons.mp distinct
    rcases List.mem_cons.mp member with rfl | later
    · rw [get?_cons_text, if_pos rfl]
    · have differs := apart _ later
      unfold get?
      rw [List.find?_cons, differs]
      exact ih distinct later

/-- Entries whose keys are names, none of them reserved. -/
def Named (reserved : List String) (entries : Entries) : Prop :=
  ∀ entry ∈ entries, ∃ name, entry.1 = .text name ∧ name ∉ reserved

end Entries

namespace Store

variable {s t : Store} {mapping v : Value} {entries : Entries}

/-- Mappings as a store makes them: no two keys count as one, and nothing in them is outside of the store. -/
structure WellFormed (s : Store) : Prop where
  distinct : ∀ {v entries}, s.entries? v = some entries → entries.Distinct
  inside : ∀ {v entries}, s.entries? v = some entries → ∀ entry ∈ entries, ∀ place, entry.2 = .ref place → place < s.cells.size

/-- Stores that hold the same but for one container. -/
def SameBut (s : Store) (v : Value) (t : Store) : Prop :=
  ∀ w, w ≠ v → t.cell? w = s.cell? w

theorem entries?_eq_some : s.entries? v = some entries ↔ s.cell? v = some (.map entries) := by
  unfold entries?
  split
  next found => rw [found]; simp
  next other =>
    refine ⟨nofun, fun found => ?_⟩
    exact absurd found (other entries)

theorem entries?_congr (same : t.cell? v = s.cell? v) : t.entries? v = s.entries? v := by
  unfold entries?
  rw [same]

/-- A mapping that is given an entry holds it, and nothing else is affected. -/
theorem putEntry_text (found : s.entries? mapping = some entries) (name : String) (v : Value) :
    ∃ t, s.putEntry mapping (.text name) v = .ok t ∧ t.entries? mapping = some (entries.put (.text name) v) ∧
      s.SameBut mapping t := by
  obtain ⟨place, rfl⟩ : ∃ place, mapping = .ref place := by
    cases mapping with
    | ref place => exact ⟨place, rfl⟩
    | scalar _ | tuple _ => cases found
  have inside : place < s.cells.size := by
    have held : s.cells[place]? = some (.map entries) := entries?_eq_some.mp found
    exact (Array.getElem?_eq_some_iff.mp held).1
  refine ⟨s.set place (.map (entries.put (.text name) v)), ?_, entries?_eq_some.mpr ?_, fun w other => ?_⟩
  · unfold putEntry
    simp only [container?, found]
  · simp [cell?, set, inside]
  · cases w with
    | ref p =>
      have differs : place ≠ p := fun same => other (same ▸ rfl)
      simp [cell?, set, differs]
    | scalar _ | tuple _ => rfl

/-- A later store, in which no mapping has lost a key. -/
def Retains (s t : Store) : Prop :=
  ∀ v entries, s.entries? v = some entries →
    ∃ more, t.entries? v = some more ∧ ∀ key, (entries.get? key).isSome → (more.get? key).isSome

theorem Retains.refl (s : Store) : s.Retains s :=
  fun _ entries found => ⟨entries, found, fun _ held => held⟩

theorem Retains.trans {u : Store} (first : s.Retains t) (second : t.Retains u) : s.Retains u := by
  intro v entries found
  obtain ⟨more, found', kept⟩ := first v entries found
  obtain ⟨all, found'', kept'⟩ := second v more found'
  exact ⟨all, found'', fun key held => kept' key (kept key held)⟩

end Store

/-- A value that nothing else is given instead of. -/
@[simp] theorem map_getD_none (x : Option Value) : (x.map fun old => (none : Option Value).getD old) = x := by
  cases x <;> rfl

namespace Section

variable {fields : Section} {s t : Store} {entries : Entries} {name : String} {v : Value}

theorem get?_eq (found : s.entries? fields.own = some entries) (name : String) :
    fields.get? s name = (entries.get? (.text name)).or (fields.kind.fixed.lookup name) := by
  unfold get?
  rw [found, Option.getD_some]

/-- What becomes of a section that takes up entries: its settings have the values that the entries give them, and
nothing else in the store is affected. -/
structure Takes (fields : Section) (s : Store) (entries : Entries) (t : Store) : Prop where
  own : (t.entries? fields.own).isSome
  values : ∀ name, fields.get? t name = (fields.get? s name).map fun old => (entries.get? (.text name)).getD old
  elsewhere : s.SameBut fields.own t

/-- A name that is there gets another value, and no other name is affected. -/
theorem set_has (own : (s.entries? fields.own).isSome) (has : fields.has s name = true) (v : Value) :
    ∃ t, fields.set s name v = .ok t ∧ (t.entries? fields.own).isSome ∧
      (∀ key, fields.get? t key = if name = key then some v else fields.get? s key) ∧ s.SameBut fields.own t := by
  obtain ⟨entries, found⟩ := Option.isSome_iff_exists.mp own
  obtain ⟨t, put, after, elsewhere⟩ := Store.putEntry_text found name v
  refine ⟨t, ?_, ?_, fun key => ?_, elsewhere⟩
  · unfold set
    rw [if_pos has, put]
  · rw [after]; rfl
  · rw [get?_eq after, get?_eq found, Entries.get?_put]
    by_cases equal : name = key
    · rw [if_pos (Value.sameKey_texts.mpr equal), if_pos equal, Option.some_or]
    · rw [if_neg (mt Value.sameKey_texts.mp equal), if_neg equal]

/-- A name that is not reserved is taken up if it is a setting's, and passed over otherwise. -/
theorem set_takes (own : (s.entries? fields.own).isSome) (free : name ∉ commonNames) (v : Value) :
    ∃ t, fields.set s name v = .ok t ∧ fields.Takes s [(.text name, v)] t := by
  cases found : fields.get? s name with
  | none =>
    refine ⟨s, ?_, own, fun key => ?_, fun _ _ => rfl⟩
    · unfold set has
      rw [found, if_neg (by simpa using free)]
    · rw [Entries.get?_cons_text]
      split
      next same => rw [← same, found]; rfl
      next => exact (map_getD_none _).symm
  | some old =>
    obtain ⟨t, put, own, values, elsewhere⟩ := set_has own (by unfold has; rw [found]; rfl) v
    refine ⟨t, put, own, fun key => ?_, elsewhere⟩
    rw [values, Entries.get?_cons_text]
    split
    next same => rw [← same, found]; rfl
    next => exact (map_getD_none _).symm

theorem Takes.trans {u : Store} (first : fields.Takes s [(.text name, v)] t) (second : fields.Takes t entries u)
    (fresh : entries.get? (.text name) = none) : fields.Takes s ((.text name, v) :: entries) u where
  own := second.own
  values key := by
    rw [second.values, first.values, Entries.get?_cons_text, Entries.get?_cons_text, Option.map_map]
    congr 1
    funext old
    dsimp only [Function.comp]
    split
    next same => rw [← same, fresh]; rfl
    next => rfl
  elsewhere w other := (second.elsewhere w other).trans (first.elsewhere w other)

end Section

namespace Settings

variable {s t : Store} {c d : Settings} {data entries : Entries} {fields : Section} {name : String} {v : Value}
  {kind : SectionKind}

theorem checkReserved_free (free : name ∉ commonNames) (owner : String) : checkReserved owner name = .ok () := by
  have differs (reserved : String) (member : reserved ∈ commonNames) : name ≠ reserved := fun same => free (same ▸ member)
  unfold checkReserved
  rw [if_neg (by simp [differs "__class__" (by decide), differs "__dict__" (by decide)]),
    if_neg (differs "__weakref__" (by decide))]

theorem mergeSection_named (own : (s.entries? fields.own).isSome) (named : entries.Named commonNames)
    (distinct : entries.Distinct) : ∃ t, mergeSection s fields entries = .ok (t, fields) ∧ fields.Takes s entries t := by
  induction entries generalizing s with
  | nil =>
    exact ⟨s, rfl, own, fun key => (map_getD_none _).symm, fun _ _ => rfl⟩
  | cons entry rest ih =>
    obtain ⟨key, v⟩ := entry
    obtain ⟨name, rfl, free⟩ := named _ List.mem_cons_self
    obtain ⟨t, put, takes⟩ := Section.set_takes own free v
    obtain ⟨u, merged, further⟩ := ih takes.own (fun entry member => named entry (List.mem_cons_of_mem _ member))
      (List.pairwise_cons.mp distinct).2
    refine ⟨u, ?_, takes.trans further distinct.fresh⟩
    have other : (name = "__dict__" && s.isMapping v) = false := by
      have differs : name ≠ "__dict__" := fun same => free (same ▸ by decide)
      simp [differs]
    simp only [mergeSection, nameOf, bind, Except.bind, other, checkReserved_free free, put, merged]
    rfl

/-- The value that a section has under a name. -/
def value? (c : Settings) (s : Store) (kind : SectionKind) (name : String) : Option Value :=
  match c.part kind with
  | .fields fields => fields.get? s name
  | _ => none

/-- The value that a document gives a setting of a section. -/
def given? (s : Store) (data : Entries) (kind : SectionKind) (name : String) : Option Value := do
  (← s.entries? (← data.get? (.text kind.name))).get? (.text name)

/-- Settings whose sections keep their values, each in a mapping of its own. -/
structure Sectioned (s : Store) (c : Settings) (own : SectionKind → Value) : Prop where
  fields : ∀ kind, c.part kind = .fields ⟨kind, own kind⟩
  mapping : ∀ kind, (s.entries? (own kind)).isSome
  apart : Function.Injective own

/-- What becomes of settings that take up what a document says of their own and nothing else. The sections are the
same objects as before, and so is everything else that the settings have. -/
structure Adopts (s : Store) (c : Settings) (data : Entries) (t : Store) (d : Settings) : Prop where
  sections : ∀ kind, d.part kind = c.part kind
  values : ∀ kind name, d.value? t kind name = (c.value? s kind name).map fun old => (given? s data kind name).getD old
  debug : d.debug = (data.get? (.text "debug")).getD c.debug
  replaced : d.own = c.own ∧ d.shared = c.shared
  elsewhere : ∀ w, (∀ kind, c.part kind ≠ .fields ⟨kind, w⟩) → t.cell? w = s.cell? w

/-- An entry that settings take up or pass over. -/
inductive Fits (s : Store) : String → Value → Prop
  /-- It says of a section what settings it has, perhaps with names that are unknown. -/
  | part (kind : SectionKind) {v : Value} {entries : Entries} (mapping : s.entries? v = some entries)
      (named : entries.Named commonNames) : Fits s kind.name v
  | debug (v : Value) : Fits s "debug" v
  /-- Nothing has its name. -/
  | unknown {name : String} (v : Value) (part : ∀ kind : SectionKind, name ≠ kind.name) (switch : name ≠ "debug")
      (other : name ∉ otherNames) : Fits s name v
  /-- It says of what all settings have in common nothing that is known. -/
  | common {v : Value} {entries : Entries} (mapping : s.entries? v = some entries) (named : entries.Named sharedNames) :
      Fits s "__class__" v

theorem named?_name (kind : SectionKind) : SectionKind.named? kind.name = some kind := by
  cases kind <;> rfl

theorem named?_eq_some (found : SectionKind.named? name = some kind) : name = kind.name := by
  have fits := List.find?_some (p := fun kind : SectionKind => kind.name = name) found
  exact (of_decide_eq_true fits).symm

theorem named?_eq_none (part : ∀ kind : SectionKind, name ≠ kind.name) : SectionKind.named? name = none := by
  cases found : SectionKind.named? name with
  | none => rfl
  | some kind => exact absurd (named?_eq_some found) (part kind)

@[simp] theorem setPart_part (c : Settings) (kind : SectionKind) : c.setPart (c.part kind) kind = c := by
  cases kind <;> rfl

theorem value?_fields (sectioned : c.part kind = .fields fields) (s : Store) (name : String) :
    c.value? s kind name = fields.get? s name := by
  unfold value?
  rw [sectioned]

theorem given?_singleton (s : Store) (entry : String) (v : Value) (kind : SectionKind) (name : String) :
    given? s [(.text entry, v)] kind name =
      if entry = kind.name then (s.entries? v).bind (·.get? (.text name)) else none := by
  unfold given?
  rw [Entries.get?_cons_text]
  split <;> rfl

theorem adopts_same (part : ∀ kind : SectionKind, name ≠ kind.name) (switch : name ≠ "debug") (s : Store) (c : Settings)
    (v : Value) : Adopts s c [(.text name, v)] s c where
  sections _ := rfl
  values kind key := by
    rw [given?_singleton, if_neg (part kind), map_getD_none]
  debug := by rw [Entries.get?_cons_text, if_neg switch]; rfl
  replaced := ⟨rfl, rfl⟩
  elsewhere _ _ := rfl

theorem mergeShared_named (bare : c.shared = []) (named : entries.Named sharedNames) : mergeShared s c entries = .ok c := by
  induction entries with
  | nil => rfl
  | cons entry rest ih =>
    obtain ⟨key, v⟩ := entry
    obtain ⟨name, rfl, free⟩ := named _ List.mem_cons_self
    have unknown : c.hasShared name = false := by
      unfold hasShared
      rw [bare]
      simpa using free
    simp only [mergeShared, nameOf, bind, Except.bind, unknown]
    exact ih fun entry member => named entry (List.mem_cons_of_mem _ member)

variable {own : SectionKind → Value}

theorem Fits.adopted (fits : Fits s name v) (sectioned : Sectioned s c own) (bare : c.own = [] ∧ c.shared = [])
    (distinct : ∀ entries, s.entries? v = some entries → entries.Distinct) :
    ∃ t d, mergeEntry s c name v = .ok (t, d) ∧ Adopts s c [(.text name, v)] t d ∧ Sectioned t d own := by
  cases fits with
  | part kind mapping named =>
    have within : (s.entries? (⟨kind, own kind⟩ : Section).own).isSome := sectioned.mapping kind
    obtain ⟨t, merged, takes⟩ := mergeSection_named within named (distinct _ mapping)
    have result : mergeEntry s c kind.name v = .ok (t, c) := by
      simp only [mergeEntry, named?_name, mergePart, sectioned.fields, mapping, merged, bind, Except.bind, pure, Except.pure]
      rw [← sectioned.fields, setPart_part]
    have others {other : SectionKind} (differs : other ≠ kind) : t.entries? (own other) = s.entries? (own other) :=
      Store.entries?_congr (takes.elsewhere _ fun same => differs (sectioned.apart same))
    refine ⟨t, c, result, ⟨fun _ => rfl, fun other key => ?_, ?_, ⟨rfl, rfl⟩, fun w other => ?_⟩,
      sectioned.fields, fun other => ?_, sectioned.apart⟩
    · rw [value?_fields (sectioned.fields other), value?_fields (sectioned.fields other), given?_singleton]
      by_cases same : other = kind
      · subst same
        rw [takes.values, if_pos rfl, mapping, Option.bind_some]
      · have names : kind.name ≠ other.name := fun equal => same (by
          have found := named?_name other
          rw [← equal, named?_name] at found
          exact (Option.some.inj found).symm)
        rw [if_neg names]
        unfold Section.get?
        dsimp only
        rw [others same, map_getD_none]
    · rw [Entries.get?_cons_text, if_neg (by cases kind <;> decide)]; rfl
    · exact takes.elsewhere w fun same => other kind (same ▸ sectioned.fields kind)
    · by_cases same : other = kind
      · exact same ▸ takes.own
      · rw [others same]; exact sectioned.mapping other
  | debug v =>
    refine ⟨s, { c with debug := v }, rfl, ⟨fun kind => ?_, fun kind key => ?_, ?_, ⟨rfl, rfl⟩, fun _ _ => rfl⟩,
      fun kind => ?_, sectioned.mapping, sectioned.apart⟩
    · cases kind <;> rfl
    · rw [given?_singleton, if_neg (by cases kind <;> decide)]
      have same : value? { c with debug := v } s kind key = c.value? s kind key := by cases kind <;> rfl
      rw [same, map_getD_none]
    · rw [Entries.get?_cons_text, if_pos rfl]; rfl
    · rw [← sectioned.fields kind]; cases kind <;> rfl
  | unknown v part switch other =>
    refine ⟨s, c, ?_, adopts_same part switch s c v, sectioned⟩
    have passed : c.mergeOther s name v = .ok c := by
      have differs (reserved : String) (member : reserved ∈ otherNames) : name ≠ reserved := fun same => other (same ▸ member)
      have absent : c.has name = false := by
        unfold has replacement?
        rw [bare.1, bare.2]
        simpa using other
      unfold mergeOther
      split
      · exact absurd rfl (differs "__dict__" (by decide))
      · exact absurd rfl (differs "__class__" (by decide))
      · simp only [checkReserved_free fun member => other (List.mem_append_left _ member), absent, bind, Except.bind]
        rfl
    simp only [mergeEntry, named?_eq_none part, if_neg switch, passed, bind, Except.bind, pure, Except.pure]
  | common mapping named =>
    refine ⟨s, c, ?_, adopts_same (fun kind => by cases kind <;> decide) (by decide) s c v, sectioned⟩
    have found : SectionKind.named? "__class__" = none := rfl
    simp only [mergeEntry, found, if_neg (show ¬ "__class__" = "debug" by decide), mergeOther, mapping,
      mergeShared_named bare.2 named, bind, Except.bind, pure, Except.pure]

theorem Fits.congr (fits : Fits s name v) (same : t.entries? v = s.entries? v) : Fits t name v := by
  cases fits with
  | part kind mapping named => exact .part kind (same.trans mapping) named
  | debug v => exact .debug v
  | unknown v part switch other => exact .unknown v part switch other
  | common mapping named => exact .common (same.trans mapping) named

theorem Adopts.trans {u : Store} {e : Settings} (first : Adopts s c [(.text name, v)] t d) (second : Adopts t d data u e)
    (fresh : data.get? (.text name) = none) (same : ∀ entry ∈ data, t.entries? entry.2 = s.entries? entry.2) :
    Adopts s c ((.text name, v) :: data) u e where
  sections kind := (second.sections kind).trans (first.sections kind)
  values kind key := by
    have stable : given? t data kind key = given? s data kind key := by
      unfold given?
      cases found : data.get? (.text kind.name) with
      | none => rfl
      | some w => simp only [Option.bind_eq_bind, Option.bind_some, same _ (Entries.mem_get? found)]
    rw [second.values, first.values, stable, given?_singleton, Option.map_map]
    congr 1
    funext old
    unfold given?
    rw [Entries.get?_cons_text]
    dsimp only [Function.comp]
    split
    next equal => rw [← equal, fresh]; rfl
    next => rfl
  debug := by
    rw [second.debug, first.debug, Entries.get?_cons_text, Entries.get?_cons_text]
    split
    next equal => rw [← equal, fresh]; rfl
    next => rfl
  replaced := ⟨second.replaced.1.trans first.replaced.1, second.replaced.2.trans first.replaced.2⟩
  elsewhere w other := (second.elsewhere w fun kind => by rw [first.sections]; exact other kind).trans (first.elsewhere w other)

/-- A document that lies in a store, apart from the values of sections. -/
structure Apart (s : Store) (own : SectionKind → Value) (data : Entries) : Prop where
  distinct : ∀ entry ∈ data, ∀ entries, s.entries? entry.2 = some entries → entries.Distinct
  outside : ∀ entry ∈ data, ∀ kind, entry.2 ≠ own kind
  within : ∀ entry ∈ data, ∀ entries, s.entries? entry.2 = some entries → ∀ inner ∈ entries, ∀ kind, inner.2 ≠ own kind

theorem Apart.later {entry : Value × Value} (apart : Apart s own (entry :: data))
    (same : ∀ entry ∈ data, t.entries? entry.2 = s.entries? entry.2) : Apart t own data where
  distinct e member entries found := apart.distinct e (List.mem_cons_of_mem _ member) entries ((same e member).symm.trans found)
  outside e member := apart.outside e (List.mem_cons_of_mem _ member)
  within e member entries found := apart.within e (List.mem_cons_of_mem _ member) entries ((same e member).symm.trans found)

/-- What a document says is as before where it is apart from the sections. -/
theorem Adopts.stable {entry : Value × Value} {before : Entries} (adopts : Adopts s c before t d)
    (sectioned : Sectioned s c own) (apart : Apart s own (entry :: data)) :
    ∀ entry ∈ data, t.entries? entry.2 = s.entries? entry.2 := by
  intro e member
  refine Store.entries?_congr (adopts.elsewhere _ fun kind same => ?_)
  rw [sectioned.fields, Part.fields.injEq, Section.mk.injEq] at same
  exact apart.outside e (List.mem_cons_of_mem _ member) kind same.2.symm

theorem mergeEntries_fit (sectioned : Sectioned s c own) (bare : c.own = [] ∧ c.shared = []) (apart : Apart s own data)
    (named : ∀ entry ∈ data, ∃ name, entry.1 = .text name) (distinct : data.Distinct)
    (fits : ∀ name v, (.text name, v) ∈ data → Fits s name v) :
    ∃ t d, mergeEntries s c data = .ok (t, d) ∧ Adopts s c data t d := by
  induction data generalizing s c with
  | nil =>
    refine ⟨s, c, rfl, fun _ => rfl, fun kind key => ?_, rfl, ⟨rfl, rfl⟩, fun _ _ => rfl⟩
    exact (map_getD_none _).symm
  | cons entry rest ih =>
    obtain ⟨key, v⟩ := entry
    obtain ⟨name, rfl⟩ := named _ List.mem_cons_self
    obtain ⟨t, d, merged, adopts, sectioned'⟩ :=
      (fits name v List.mem_cons_self).adopted sectioned bare (apart.distinct _ List.mem_cons_self)
    have same := adopts.stable sectioned apart
    obtain ⟨u, e, further, adopts'⟩ := ih sectioned' ⟨adopts.replaced.1.trans bare.1, adopts.replaced.2.trans bare.2⟩
      (apart.later same) (fun entry member => named entry (List.mem_cons_of_mem _ member)) (List.pairwise_cons.mp distinct).2
      fun name v member => (fits name v (List.mem_cons_of_mem _ member)).congr (same _ member)
    refine ⟨u, e, ?_, adopts.trans adopts' distinct.fresh same⟩
    simp only [mergeEntries, nameOf, bind, Except.bind, merged, further]

/-! ### Entries that do not fit -/

theorem has_later (retains : s.Retains t) (held : (fields.get? s name).isSome) : (fields.get? t name).isSome := by
  unfold Section.get? at held ⊢
  rw [Option.isSome_or, Bool.or_eq_true] at held ⊢
  refine held.imp_left fun held => ?_
  cases found : s.entries? fields.own with
  | none => rw [found] at held; cases held
  | some entries =>
    rw [found] at held
    obtain ⟨more, found', kept⟩ := retains _ _ found
    rw [found']
    exact kept _ held

theorem set_retains (fields : Section) (s : Store) (name : String) (v : Value) :
    Yields (fields.set s name v) s.Retains fun _ => True := by
  unfold Section.set
  split
  · cases found : s.entries? fields.own with
    | none =>
      have same : s.putEntry fields.own (.text name) v = .ok s := by
        unfold Store.putEntry
        rw [found]
        cases fields.own <;> rfl
      rw [same]
      exact .done (.refl s)
    | some entries =>
      obtain ⟨t, put, after, elsewhere⟩ := Store.putEntry_text found name v
      rw [put]
      refine .done fun w others found' => ?_
      by_cases same : w = fields.own
      · subst same
        cases found.symm.trans found'
        refine ⟨_, after, fun key held => ?_⟩
        rw [Entries.get?_put]
        split
        · rfl
        · exact held
      · exact ⟨others, (Store.entries?_congr (elsewhere w same)).trans found', fun _ held => held⟩
  · exact .done (.refl s)

/-- A section that keeps its values somewhere else, or that has been given something under a reserved name. -/
def Strays (own : Value) (s : Store) (fields : Section) : Prop :=
  fields.own ≠ own ∨ ∃ name ∈ commonNames, (fields.get? s name).isSome

theorem Strays.later {own : Value} (strays : Strays own s fields) (retains : s.Retains t) : Strays own t fields :=
  strays.imp_right fun ⟨name, member, held⟩ => ⟨name, member, has_later retains held⟩

theorem mergeSection_cons (s : Store) (fields : Section) (key v : Value) (rest : Entries) :
    mergeSection s fields ((key, v) :: rest) = (do
      let name ← nameOf s key
      if name = "__dict__" && s.isMapping v then mergeSection s { fields with own := v } rest
      else
        checkReserved fields.kind.label name
        mergeSection (← fields.set s name v) fields rest) :=
  rfl

theorem after {α β : Type} {x : Except Fault α} {f : α → Except Fault β} {good : β → Prop}
    (next : ∀ a, x = .ok a → Yields (f a) good fun _ => True) : Yields (x >>= f) good fun _ => True := by
  cases found : x with
  | ok a => exact next a found
  | error fault => exact .fails trivial

theorem mergeSection_retains (s : Store) (fields : Section) (entries : Entries) :
    Yields (mergeSection s fields entries) (fun result => s.Retains result.1) fun _ => True := by
  induction entries generalizing s fields with
  | nil => exact .done (.refl s)
  | cons entry rest ih =>
    rw [mergeSection_cons]
    refine after fun name _ => .ite (fun _ => ih s _) fun _ => after fun _ _ => ?_
    exact (set_retains fields s name entry.2).bind fun t first =>
      (ih t fields).mono (fun _ second => first.trans second) fun _ _ => trivial

theorem mergeSection_strays {own : Value} (outside : ∀ entry ∈ entries, entry.2 ≠ own) (strays : Strays own s fields) :
    Yields (mergeSection s fields entries) (fun result => Strays own result.1 result.2) fun _ => True := by
  induction entries generalizing s fields with
  | nil => exact .done strays
  | cons entry rest ih =>
    have outside' : ∀ entry ∈ rest, entry.2 ≠ own := fun entry member => outside entry (List.mem_cons_of_mem _ member)
    rw [mergeSection_cons]
    refine after fun name _ => .ite (fun _ => ?_) fun _ => after fun _ _ => ?_
    · exact ih outside' (Or.inl (outside entry List.mem_cons_self))
    · exact (set_retains fields s name entry.2).bind fun t first => ih outside' (strays.later first)

theorem mergeSection_reserved (outside : ∀ entry ∈ entries, entry.2 ≠ fields.own) (own : (s.entries? fields.own).isSome)
    (rough : ¬ entries.Named commonNames) :
    Yields (mergeSection s fields entries) (fun result => Strays fields.own result.1 result.2) fun _ => True := by
  induction entries generalizing s with
  | nil => exact absurd (fun _ member => by cases member) rough
  | cons entry rest ih =>
    obtain ⟨key, v⟩ := entry
    have outside' : ∀ entry ∈ rest, entry.2 ≠ fields.own := fun entry member => outside entry (List.mem_cons_of_mem _ member)
    rw [mergeSection_cons]
    refine after fun name found => .ite (fun _ => ?_) fun _ => after fun _ _ => ?_
    · exact mergeSection_strays outside' (Or.inl (outside _ List.mem_cons_self))
    have isText : key = .text name := by
      unfold nameOf at found
      split at found
      · cases found; rfl
      · cases found
    subst isText
    -- A reserved name makes the section stray at once. Any other one leaves the rest as rough as the whole.
    by_cases reserved : name ∈ commonNames
    · have has : fields.has s name = true := by
        unfold Section.has
        rw [Bool.or_eq_true]
        exact Or.inr (by simpa using reserved)
      obtain ⟨t, put, -, values, -⟩ := Section.set_has own has v
      rw [put]
      refine mergeSection_strays (s := t) outside' (Or.inr ⟨name, reserved, ?_⟩)
      rw [values, if_pos rfl]
      rfl
    · obtain ⟨t, put, takes⟩ := Section.set_takes own reserved v
      rw [put]
      refine ih outside' takes.own fun named => rough fun entry member => ?_
      rcases List.mem_cons.mp member with rfl | later
      · exact ⟨name, rfl, reserved⟩
      · exact named entry later

/-- Settings that have lost a section, or have something in the place of what all settings have. -/
def Displaced (c : Settings) : Prop :=
  c.own ≠ [] ∨ c.shared ≠ [] ∨ ∃ kind, ∀ fields, c.part kind ≠ .fields fields

@[simp] theorem part_setPart (c : Settings) (part : Part) (kind other : SectionKind) :
    (c.setPart part kind).part other = if other = kind then part else c.part other := by
  cases kind <;> cases other <;> rfl

@[simp] theorem own_setPart (c : Settings) (part : Part) (kind : SectionKind) : (c.setPart part kind).own = c.own := by
  cases kind <;> rfl

@[simp] theorem shared_setPart (c : Settings) (part : Part) (kind : SectionKind) : (c.setPart part kind).shared = c.shared := by
  cases kind <;> rfl

theorem mergeShared_more (s : Store) (c : Settings) (entries : Entries) :
    Yields (mergeShared s c entries) (fun d => ∃ more, d = { c with shared := more ++ c.shared }) fun _ => True := by
  induction entries generalizing c with
  | nil => exact .done ⟨[], rfl⟩
  | cons entry rest ih =>
    refine after (f := fun name => if c.hasShared name then (do
        checkShared name entry.2
        mergeShared s { c with shared := (name, entry.2) :: c.shared } rest) else mergeShared s c rest) fun name _ => ?_
    refine .ite (fun _ => after fun _ _ => ?_) fun _ => ih c
    refine (ih _).mono (fun d ⟨more, same⟩ => ⟨more ++ [(name, entry.2)], ?_⟩) fun _ _ => trivial
    rw [same, List.append_assoc]
    rfl

theorem mergeShared_known (rough : ¬ entries.Named sharedNames) :
    Yields (mergeShared s c entries) (fun d => d.shared ≠ []) fun _ => True := by
  induction entries with
  | nil => exact absurd (fun _ member => by cases member) rough
  | cons entry rest ih =>
    obtain ⟨key, v⟩ := entry
    refine after (f := fun name => if c.hasShared name then (do
        checkShared name v
        mergeShared s { c with shared := (name, v) :: c.shared } rest) else mergeShared s c rest) fun name found => ?_
    refine .ite (fun _ => after fun _ _ => ?_) fun unknown => ?_
    · refine (mergeShared_more s _ rest).mono (fun d ⟨more, same⟩ => ?_) fun _ _ => trivial
      rw [same]
      simp
    · refine ih fun named => rough fun entry member => ?_
      rcases List.mem_cons.mp member with rfl | later
      · refine ⟨name, ?_, fun known => unknown ?_⟩
        · dsimp only at found ⊢
          unfold nameOf at found
          split at found
          · cases found; rfl
          · cases found
        · unfold hasShared
          rw [Bool.or_eq_true]
          exact Or.inl (by simpa using known)
      · exact named entry later

/-- What may become of settings by an entry that is neither a section nor the switch. -/
theorem mergeOther_cases (merged : mergeOther s c name v = .ok d) :
    (∃ entries, name = "__dict__" ∧ s.entries? v = some entries ∧ d = c.replaceAll entries) ∨
      (∃ entries, name = "__class__" ∧ s.entries? v = some entries ∧ mergeShared s c entries = .ok d) ∨
      checkReserved "AAIMConfig" name = .ok () ∧ d = if c.has name then { c with own := (name, v) :: c.own } else c := by
  unfold mergeOther at merged
  split at merged
  next entries found => exact Or.inl ⟨entries, rfl, found, (Except.ok.inj merged).symm⟩
  next entries found => exact Or.inr (Or.inl ⟨entries, rfl, found, merged⟩)
  next other _ _ _ _ =>
    refine Or.inr (Or.inr ?_)
    cases checked : checkReserved "AAIMConfig" other with
    | error fault => rw [checked] at merged; cases merged
    | ok =>
      rw [checked] at merged
      exact ⟨rfl, (Except.ok.inj merged).symm⟩

theorem part_replaceAll (c : Settings) (entries : Entries) (kind : SectionKind) (fields : Section) :
    (c.replaceAll entries).part kind ≠ .fields fields := by
  cases kind <;> (unfold replaceAll part; dsimp only; split <;> exact nofun)

theorem Displaced.congr (displaced : Displaced c) (own : d.own = c.own) (shared : d.shared = c.shared)
    (part : ∀ kind, (∀ fields, c.part kind ≠ .fields fields) → ∀ fields, d.part kind ≠ .fields fields) : Displaced d :=
  displaced.imp (fun given => own ▸ given) (.imp (fun given => shared ▸ given) fun ⟨kind, absent⟩ => ⟨kind, part kind absent⟩)

theorem mergePart_retains (s : Store) (part : Part) (v : Value) :
    Yields (mergePart s part v) (fun result => s.Retains result.1) fun _ => True := by
  unfold mergePart
  split
  · exact .done (.refl s)
  next fields entries _ =>
    exact (mergeSection_retains s fields entries).bind fun result retains => .done retains
  · exact .done (.refl s)

theorem mergePart_absent {part result : Part} (absent : ∀ fields, part ≠ .fields fields)
    (merged : mergePart s part v = .ok (t, result)) : ∀ fields, result ≠ .fields fields := by
  unfold mergePart at merged
  split at merged
  · cases merged; exact nofun
  · exact absurd rfl (absent _)
  · cases merged; exact nofun

theorem mergeEntry_displaced (displaced : Displaced c) (s : Store) (name : String) (v : Value) :
    Yields (mergeEntry s c name v) (fun result => Displaced result.2) fun _ => True := by
  unfold mergeEntry
  split
  next kind _ =>
    refine after fun (t, part) merged => .done ?_
    refine displaced.congr (own_setPart ..) (shared_setPart ..) fun other absent => ?_
    rw [part_setPart]
    split
    next same => exact mergePart_absent (same ▸ absent) merged
    next => exact absent
  next =>
    refine .ite (fun _ => .done ?_) fun _ => after fun d merged => .done ?_
    · exact displaced.congr rfl rfl fun kind absent => by cases kind <;> exact absent
    · obtain ⟨entries, -, -, rfl⟩ | ⟨entries, -, -, merged⟩ | ⟨-, rfl⟩ := mergeOther_cases merged
      · exact Or.inr (Or.inr ⟨.runtime, part_replaceAll c entries .runtime⟩)
      · obtain ⟨more, rfl⟩ := (mergeShared_more s c entries).ok merged
        obtain own | shared | ⟨kind, absent⟩ := displaced
        · exact Or.inl own
        · exact Or.inr (Or.inl fun none => shared (List.append_eq_nil_iff.mp none).2)
        · exact Or.inr (Or.inr ⟨kind, by cases kind <;> exact absent⟩)
      · split
        · exact Or.inl (by simp)
        · exact displaced

theorem mergeEntry_strays {own : Value} (strays : ∀ fields, c.part kind = .fields fields → Strays own s fields)
    (other : name ≠ kind.name) (v : Value) :
    Yields (mergeEntry s c name v) (fun result => ∀ fields, result.2.part kind = .fields fields → Strays own result.1 fields)
      fun _ => True := by
  unfold mergeEntry
  split
  next another found =>
    refine after fun (t, part) merged => .done fun fields same => ?_
    have differs : kind ≠ another := fun equal => other (equal ▸ named?_eq_some found)
    rw [part_setPart, if_neg differs] at same
    exact (strays fields same).later ((mergePart_retains s _ v).ok merged)
  next =>
    refine .ite (fun _ => .done fun fields same => ?_) fun _ => after fun d merged => .done fun fields same => ?_
    · exact strays fields (by cases kind <;> exact same)
    · obtain ⟨entries, -, -, rfl⟩ | ⟨entries, -, -, merged⟩ | ⟨-, rfl⟩ := mergeOther_cases merged
      · exact absurd same (part_replaceAll c entries kind fields)
      · obtain ⟨more, rfl⟩ := (mergeShared_more s c entries).ok merged
        exact strays fields (by cases kind <;> exact same)
      · refine strays fields ?_
        split at same
        · cases kind <;> exact same
        · exact same

/-- An entry that does not fit displaces something, or leads a section astray. -/
theorem mergeEntry_rough (sectioned : Sectioned s c own)
    (within : ∀ entries, s.entries? v = some entries → ∀ inner ∈ entries, ∀ kind, inner.2 ≠ own kind)
    (rough : ¬ Fits s name v) :
    Yields (mergeEntry s c name v) (fun result => Displaced result.2 ∨ ∃ kind : SectionKind, kind.name = name ∧
      ∀ fields, result.2.part kind = .fields fields → Strays (own kind) result.1 fields) fun _ => True := by
  unfold mergeEntry
  split
  next kind found =>
    cases named?_eq_some found
    refine after fun (t, part) merged => .done ?_
    cases mapping : s.entries? v with
    | none =>
      have replaced : part = .value v := by
        unfold mergePart at merged
        rw [sectioned.fields, mapping] at merged
        cases merged
        rfl
      refine Or.inl (Or.inr (Or.inr ⟨kind, fun fields => ?_⟩))
      rw [part_setPart, if_pos rfl, replaced]
      exact nofun
    | some entries =>
      refine Or.inr ⟨kind, rfl, fun fields same => ?_⟩
      rw [part_setPart, if_pos rfl] at same
      have mapped : (s.entries? (⟨kind, own kind⟩ : Section).own).isSome := sectioned.mapping kind
      have reserved := mergeSection_reserved (fun inner member => within entries mapping inner member kind) mapped
        fun named => rough (.part kind mapping named)
      unfold mergePart at merged
      rw [sectioned.fields, mapping] at merged
      dsimp only at merged
      cases inner : mergeSection s ⟨kind, own kind⟩ entries with
      | error fault => rw [inner] at merged; cases merged
      | ok result =>
        rw [inner] at merged
        cases merged
        cases same
        exact reserved.ok inner
  next free =>
    refine .ite (fun debug => ?_) fun switch => after fun d merged => .done (Or.inl ?_)
    · exact absurd (debug ▸ .debug v) rough
    · have part : ∀ kind : SectionKind, name ≠ kind.name := fun kind same => by
        rw [same, named?_name] at free
        cases free
      have known : name ∈ otherNames := by
        exact Decidable.not_not.mp fun unknown => rough (.unknown v part switch unknown)
      obtain ⟨entries, -, -, rfl⟩ | ⟨entries, rfl, mapping, merged⟩ | ⟨-, rfl⟩ := mergeOther_cases merged
      · exact Or.inr (Or.inr ⟨.runtime, part_replaceAll c entries .runtime⟩)
      · exact Or.inr (Or.inl ((mergeShared_known fun named => rough (.common mapping named)).ok merged))
      · have has : c.has name = true := by
          unfold has
          rw [Bool.or_eq_true]
          exact Or.inl (by simpa using known)
        rw [if_pos has]
        exact Or.inl (by simp)

/-- Settings in which something other than what a document may say has been changed. -/
def Upset (own : SectionKind → Value) (t : Store) (d : Settings) : Prop :=
  Displaced d ∨ ∃ kind, ∀ fields, d.part kind = .fields fields → Strays (own kind) t fields

theorem mergeEntries_cons (s : Store) (c : Settings) (key v : Value) (rest : Entries) :
    mergeEntries s c ((key, v) :: rest) = (do
      let (t, d) ← c.mergeEntry s (← nameOf s key) v
      mergeEntries t d rest) :=
  rfl

theorem mergeEntries_displaced (displaced : Displaced c) (s : Store) (data : Entries) :
    Yields (mergeEntries s c data) (fun result => Displaced result.2) fun _ => True := by
  induction data generalizing s c with
  | nil => exact .done displaced
  | cons entry rest ih =>
    rw [mergeEntries_cons]
    exact after fun name _ => (mergeEntry_displaced displaced s name entry.2).bind fun (t, d) later => ih later t

theorem mergeEntries_strays {own : Value} (strays : ∀ fields, c.part kind = .fields fields → Strays own s fields)
    (fresh : ∀ entry ∈ data, entry.1 ≠ .text kind.name) :
    Yields (mergeEntries s c data) (fun result => ∀ fields, result.2.part kind = .fields fields → Strays own result.1 fields)
      fun _ => True := by
  induction data generalizing s c with
  | nil => exact .done strays
  | cons entry rest ih =>
    obtain ⟨key, v⟩ := entry
    rw [mergeEntries_cons]
    refine after fun name found => ?_
    have other : name ≠ kind.name := by
      intro same
      refine fresh (key, v) List.mem_cons_self ?_
      unfold nameOf at found
      split at found
      · cases found; rw [same]
      · cases found
    exact (mergeEntry_strays strays other v).bind fun (t, d) later =>
      ih later fun entry member => fresh entry (List.mem_cons_of_mem _ member)

theorem mergeEntries_rough (sectioned : Sectioned s c own) (bare : c.own = [] ∧ c.shared = []) (apart : Apart s own data)
    (named : ∀ entry ∈ data, ∃ name, entry.1 = .text name) (distinct : data.Distinct) (member : (.text name, v) ∈ data)
    (rough : ¬ Fits s name v) :
    Yields (mergeEntries s c data) (fun result => Upset own result.1 result.2) fun _ => True := by
  induction data generalizing s c with
  | nil => cases member
  | cons entry rest ih =>
    obtain ⟨key, w⟩ := entry
    obtain ⟨first, rfl⟩ := named _ List.mem_cons_self
    rw [mergeEntries_cons]
    show Yields (c.mergeEntry s first w >>= fun result => mergeEntries result.1 result.2 rest) _ _
    by_cases fits : Fits s first w
    · obtain ⟨t, d, merged, adopts, sectioned'⟩ := fits.adopted sectioned bare (apart.distinct _ List.mem_cons_self)
      have same := adopts.stable sectioned apart
      rw [merged]
      rcases List.mem_cons.mp member with equal | later
      · cases equal
        exact absurd fits rough
      · exact ih sectioned' ⟨adopts.replaced.1.trans bare.1, adopts.replaced.2.trans bare.2⟩ (apart.later same)
          (fun entry member => named entry (List.mem_cons_of_mem _ member)) (List.pairwise_cons.mp distinct).2 later
          fun fits => rough (fits.congr (same _ later).symm)
    · refine (mergeEntry_rough sectioned (apart.within _ List.mem_cons_self) fits).bind fun (t, d) upset => ?_
      rcases upset with displaced | ⟨kind, equal, strays⟩
      · exact (mergeEntries_displaced displaced t rest).mono (fun _ => Or.inl) fun _ _ => trivial
      · refine (mergeEntries_strays strays fun entry member same => ?_).mono (fun _ strays => Or.inr ⟨kind, strays⟩)
          fun _ _ => trivial
        have apart := (List.pairwise_cons.mp distinct).1 entry member
        rw [same, equal, Value.text_sameKey] at apart
        cases apart

theorem Adopts.not_upset (adopts : Adopts s c data t d) (sectioned : Sectioned s c own)
    (bare : c.own = [] ∧ c.shared = []) (unreserved : ∀ kind, ∀ name ∈ commonNames, c.value? s kind name = none) :
    ¬ Upset own t d := by
  have fields (kind : SectionKind) : d.part kind = .fields ⟨kind, own kind⟩ := (adopts.sections kind).trans (sectioned.fields kind)
  rintro ((given | given | ⟨kind, absent⟩) | ⟨kind, strays⟩)
  · exact given (adopts.replaced.1.trans bare.1)
  · exact given (adopts.replaced.2.trans bare.2)
  · exact absent _ (fields kind)
  · obtain elsewhere | ⟨name, member, held⟩ := strays _ (fields kind)
    · exact elsewhere rfl
    · rw [← value?_fields (fields kind), adopts.values, unreserved kind name member] at held
      cases held

/-! ### The default settings -/

/-- What settings are like before a document changes them. -/
structure Defaults (s : Store) (c : Settings) : Prop where
  fixed : ∀ kind, ∀ setting ∈ SectionKind.fixed kind, c.value? s kind setting.1 = some setting.2
  services : ∃ v, c.value? s .runtime "services" = some v ∧ s.entries? v = some []
  context : ∃ v, c.value? s .runtime "context" = some v ∧ s.entries? v = some []
  others : ∀ kind, ∀ name ∉ SectionKind.names kind, c.value? s kind name = none
  debug : c.debug = .bool false
  bare : c.own = [] ∧ c.shared = []

/-- Where the sections of default settings keep their values. -/
def ownOf (s : Store) : SectionKind → Value
  | .observability => .ref (s.cells.size + 2)
  | .interpreter => .ref (s.cells.size + 3)
  | .runtime => .ref (s.cells.size + 4)

/-- The values that a section has by default, by their names. -/
def defaultsOf (s : Store) (kind : SectionKind) : Entries :=
  let new := if kind = SectionKind.runtime then
    [("services", Value.ref s.cells.size), ("context", Value.ref (s.cells.size + 1))] else []
  (kind.fixed ++ new).map fun (name, v) => (.text name, v)

theorem create_part (s : Store) (kind : SectionKind) : (create s).2.part kind = .fields ⟨kind, ownOf s kind⟩ := by
  cases kind <;> simp [create, newSection, Store.add, part, ownOf]

theorem create_cells (s : Store) : (create s).1.cells = s.cells ++ #[.map [], .map [], .map (defaultsOf s .observability),
    .map (defaultsOf s .interpreter), .map (defaultsOf s .runtime)] := by
  apply Array.toList_inj.mp
  simp [create, newSection, Store.add, defaultsOf]

theorem create_added (s : Store) (k : Nat) : (create s).1.cell? (.ref (s.cells.size + k)) =
    #[Cell.map [], .map [], .map (defaultsOf s .observability), .map (defaultsOf s .interpreter),
      .map (defaultsOf s .runtime)][k]? := by
  show (create s).1.cells[s.cells.size + k]? = _
  rw [create_cells, Array.getElem?_append_right (Nat.le_add_right ..), Nat.add_sub_cancel_left]

theorem create_entries (s : Store) (kind : SectionKind) : (create s).1.entries? (ownOf s kind) = some (defaultsOf s kind) :=
  Store.entries?_eq_some.mpr <| by
    cases kind
    · exact create_added s 2
    · exact create_added s 3
    · exact create_added s 4

theorem create_kept {s : Store} (inside : ∀ place, v = .ref place → place < s.cells.size) :
    (create s).1.entries? v = s.entries? v := by
  refine Store.entries?_congr ?_
  cases v with
  | ref place =>
    show (create s).1.cells[place]? = s.cells[place]?
    rw [create_cells, Array.getElem?_append_left (inside place rfl)]
  | scalar _ | tuple _ => rfl

theorem create_value? (s : Store) (kind : SectionKind) (name : String) :
    (create s).2.value? (create s).1 kind name = ((defaultsOf s kind).get? (.text name)).or (kind.fixed.lookup name) := by
  rw [value?_fields (create_part s kind), Section.get?_eq (create_entries s kind)]

theorem create_defaults (s : Store) : Defaults (create s).1 (create s).2 where
  fixed kind setting member := by
    rw [create_value?]
    cases kind <;> simp [SectionKind.fixed] at member <;> rcases member with rfl | rfl | rfl | rfl <;> rfl
  services := ⟨.ref s.cells.size, by rw [create_value?]; rfl, Store.entries?_eq_some.mpr (create_added s 0)⟩
  context := ⟨.ref (s.cells.size + 1), by rw [create_value?]; rfl, Store.entries?_eq_some.mpr (create_added s 1)⟩
  others kind name unknown := by
    have absent : (kind.fixed ++ if kind = SectionKind.runtime then
        [("services", Value.ref s.cells.size), ("context", .ref (s.cells.size + 1))] else []).lookup name = none := by
      rw [List.lookup_eq_none_iff]
      intro setting member
      refine bne_iff_ne.mpr fun same => unknown ?_
      rw [same]
      cases kind <;> simp_all [SectionKind.names, SectionKind.fixed] <;> grind
    rw [create_value?, defaultsOf, Entries.get?_names, absent, Option.none_or]
    rw [List.lookup_append, Option.or_eq_none_iff] at absent
    exact absent.1
  debug := rfl
  bare := ⟨rfl, rfl⟩

theorem names_unreserved (kind : SectionKind) : ∀ name ∈ commonNames, name ∉ kind.names := by
  cases kind <;> decide

theorem create_sectioned (s : Store) : Sectioned (create s).1 (create s).2 (ownOf s) where
  fields := create_part s
  mapping kind := by rw [create_entries]; rfl
  apart first last same := by cases first <;> cases last <;> simp_all [ownOf]

theorem ownOf_outside {place : Nat} (inside : place < s.cells.size) (kind : SectionKind) : Value.ref place ≠ ownOf s kind := by
  cases kind <;> (unfold ownOf; intro same; cases same; omega)

variable {document : Value}

/-- A document that was there before the default settings is apart from them. -/
theorem create_apart (sound : s.WellFormed) (mapping : s.entries? document = some data) :
    Apart (create s).1 (ownOf s) data := by
  have outside {v : Value} (inside : ∀ place, v = .ref place → place < s.cells.size) (kind : SectionKind) : v ≠ ownOf s kind := by
    cases v with
    | ref place => exact ownOf_outside (inside place rfl) kind
    | scalar _ | tuple _ => cases kind <;> exact nofun
  have kept {entry : Value × Value} (member : entry ∈ data) : (create s).1.entries? entry.2 = s.entries? entry.2 :=
    create_kept (sound.inside mapping entry member)
  constructor
  · intro entry member entries found
    exact sound.distinct ((kept member).symm.trans found)
  · intro entry member kind
    exact outside (sound.inside mapping entry member) kind
  · intro entry member entries found inner within kind
    exact outside (sound.inside ((kept member).symm.trans found) inner within) kind

/-- Merging a document with names for keys into the default settings. It succeeds, with the settings and sections that
the document says and all else as it is by default, exactly if each entry fits: it says of a section what its
settings are, or switches debugging, or has a name that is unknown. -/
theorem document_merged (sound : s.WellFormed) (mapping : s.entries? document = some data)
    (named : ∀ entry ∈ data, ∃ name, entry.1 = .text name) :
    Defaults (create s).1 (create s).2 ∧
      ((∃ t d, merge (create s).1 (create s).2 document = .ok (t, d) ∧ Adopts (create s).1 (create s).2 data t d) ↔
        ∀ name v, data.get? (.text name) = some v → Fits s name v) := by
  have defaults := create_defaults s
  have sectioned := create_sectioned s
  have apart := create_apart sound mapping
  have distinct := sound.distinct mapping
  have kept {name : String} {v : Value} (member : (.text name, v) ∈ data) : (create s).1.entries? v = s.entries? v :=
    create_kept (sound.inside mapping _ member)
  have whole : merge (create s).1 (create s).2 document = mergeEntries (create s).1 (create s).2 data := by
    have inside : ∀ place, document = .ref place → place < s.cells.size := by
      rintro place rfl
      have held : s.cells[place]? = some (.map data) := Store.entries?_eq_some.mp mapping
      exact (Array.getElem?_eq_some_iff.mp held).1
    unfold merge
    rw [create_kept inside, mapping]
  refine ⟨defaults, ?_, fun fits => ?_⟩
  · rintro ⟨t, d, merged, adopts⟩ name v found
    have member := Entries.mem_get? found
    refine Classical.byContradiction fun rough => ?_
    have upset := mergeEntries_rough sectioned defaults.bare apart named distinct member
      fun fits => rough (fits.congr (kept member).symm)
    have unreserved (kind : SectionKind) (name : String) (reserved : name ∈ commonNames) :
        (create s).2.value? (create s).1 kind name = none := defaults.others kind name (names_unreserved kind name reserved)
    exact adopts.not_upset sectioned defaults.bare unreserved (upset.ok (whole.symm.trans merged))
  · obtain ⟨t, d, merged, adopts⟩ := mergeEntries_fit sectioned defaults.bare apart named distinct fun name v member =>
      (fits name v (Entries.get?_mem distinct member)).congr (kept member)
    exact ⟨t, d, whole.trans merged, adopts⟩

/-- What a document says at its top: of a section, of debugging, and of something unknown. -/
private def tailoredTop : Entries :=
  [("observability", .ref 1), ("debug", .bool true), ("bogus", .int 1)].map fun (name, v) => (.text name, v)

/-- What it says of the section: a setting, and something unknown. -/
private def tailoredPart : Entries :=
  [("log_dir", .text "elsewhere"), ("nonsense", .int 2)].map fun (name, v) => (.text name, v)

private def tailored : Store where
  cells := #[.map tailoredTop, .map tailoredPart]

private theorem tailored_entries {v : Value} {entries : Entries} (found : tailored.entries? v = some entries) :
    entries = tailoredTop ∨ entries = tailoredPart := by
  cases v with
  | ref place =>
    have held : tailored.cells[place]? = some (.map entries) := Store.entries?_eq_some.mp found
    have inside : place < 2 := (Array.getElem?_eq_some_iff.mp held).1
    obtain rfl | rfl : place = 0 ∨ place = 1 := by omega
    · exact Or.inl (Cell.map.inj (Option.some.inj held)).symm
    · exact Or.inr (Cell.map.inj (Option.some.inj held)).symm
  | scalar _ | tuple _ => cases found

private theorem tailored_sound : tailored.WellFormed := by
  constructor
  · intro v entries found
    obtain rfl | rfl := tailored_entries found
    · exact Entries.distinct_names (by decide)
    · exact Entries.distinct_names (by decide)
  · intro v entries found
    obtain rfl | rfl := tailored_entries found
    · simp [tailored, tailoredTop]
    · simp [tailoredPart]

/-- What the document says of a setting counts, and the rest is as it is by default. -/
theorem tailored_merged : tailored.WellFormed ∧ tailored.entries? (.ref 0) = some tailoredTop ∧
    (∀ entry ∈ tailoredTop, ∃ name, entry.1 = .text name) ∧
    ∃ t d, merge (create tailored).1 (create tailored).2 (.ref 0) = .ok (t, d) ∧ d.debug = .bool true ∧
      d.value? t .observability "log_dir" = some (.text "elsewhere") ∧
      d.value? t .observability "log_file" = some (.text "aaim.jsonl") ∧
      d.value? t .observability "nonsense" = none := by
  have named : ∀ entry ∈ tailoredTop, ∃ name, entry.1 = .text name := by simp [tailoredTop]
  obtain ⟨-, merged⟩ := document_merged tailored_sound (show tailored.entries? (.ref 0) = some tailoredTop from rfl) named
  obtain ⟨t, d, done, adopts⟩ := merged.mpr fun name v found => by
    have member := Entries.mem_get? found
    simp only [tailoredTop, List.map_cons, List.map_nil, List.mem_cons, List.not_mem_nil, or_false, Prod.mk.injEq] at member
    obtain ⟨name', rfl⟩ | ⟨name', rfl⟩ | ⟨name', rfl⟩ := member <;> cases name'
    · refine .part .observability (show tailored.entries? (.ref 1) = some tailoredPart from rfl) fun entry member => ?_
      simp only [tailoredPart, List.map_cons, List.map_nil, List.mem_cons, List.not_mem_nil, or_false] at member
      obtain rfl | rfl := member
      · exact ⟨_, rfl, by decide⟩
      · exact ⟨_, rfl, by decide⟩
    · exact .debug _
    · exact .unknown _ (fun kind => by cases kind <;> decide) (by decide) (by decide)
  refine ⟨tailored_sound, rfl, named, t, d, done, adopts.debug, ?_, ?_, ?_⟩
  · rw [adopts.values]; rfl
  · rw [adopts.values]; rfl
  · rw [adopts.values]; rfl

/-- A section that is mentioned without settings is lost. -/
theorem bare_section_lost : ((merge (create { cells := #[.map [(.text "runtime", .null)]] }).1
    (create { cells := #[.map [(.text "runtime", .null)]] }).2 (.ref 0)).toOption.map fun result => result.2.runtime) =
      some (.value .null) :=
  rfl

end Settings

end Interaction
