import Mathlib.Data.List.Forall2
import Interaction.Proofs.Merging

/-! Layers of settings. Documents that say what sections and settings are, one merged after the other, change the same
as the one document in which the later one covers the earlier one, setting by setting. -/

namespace Interaction

namespace Entries

variable {entries later earlier : Entries} {key : Value}

/-- Entries and, under keys that they do not have, those that are older. -/
def atop (later earlier : Entries) : Entries :=
  earlier.foldl (fun entries entry => entries.putNew entry.1 entry.2) later

theorem get?_atop (later earlier : Entries) (key : Value) :
    (later.atop earlier).get? key = (later.get? key).or (earlier.get? key) := by
  induction earlier generalizing later with
  | nil => exact (Option.or_none ..).symm
  | cons entry rest ih =>
    have first : Entries.get? (entry :: rest) key =
        (if entry.1.sameKey key then some entry.2 else none).or (Entries.get? rest key) := by
      rw [← get?_singleton, ← get?_append, List.singleton_append]
    rw [first, ← Option.or_assoc, ← get?_putNew]
    exact ih _

theorem Distinct.atop (distinct : later.Distinct) (earlier : Entries) : (later.atop earlier).Distinct := by
  induction earlier generalizing later with
  | nil => exact distinct
  | cons entry rest ih => exact ih (distinct.putNew entry.1 entry.2)

theorem mem_atop {entry : Value × Value} (member : entry ∈ later.atop earlier) : entry ∈ later ∨ entry ∈ earlier := by
  induction earlier generalizing later with
  | nil => exact Or.inl member
  | cons first rest ih =>
    obtain newer | older := ih member
    · dsimp only [putNew] at newer
      split at newer
      · exact Or.inl newer
      · refine (List.mem_append.mp newer).imp_right fun last => ?_
        rw [List.mem_singleton.mp last]
        exact List.mem_cons_self
    · exact Or.inr (List.mem_cons_of_mem _ older)

/-- The order of entries does not matter if no two of their keys count as one. -/
theorem get?_perm {others : Entries} (same : entries.Perm others) (distinct : entries.Distinct) (name : String) :
    entries.get? (.text name) = others.get? (.text name) := by
  have apart : others.Distinct := (same.pairwise_iff fun {first last} differs => ?_).mp distinct
  · cases found : entries.get? (.text name) with
    | some v => exact (get?_mem apart (same.mem_iff.mp (mem_get? found))).symm
    | none =>
      cases found' : others.get? (.text name) with
      | none => rfl
      | some v =>
        rw [get?_mem distinct (same.mem_iff.mpr (mem_get? found'))] at found
        cases found
  · exact Bool.eq_false_iff.mpr fun equal => Bool.eq_false_iff.mp differs (Value.sameKey_symm equal)

end Entries

namespace Settings

variable {s t u : Store} {c d e : Settings} {data entries earlier later : Entries} {name : String} {v document : Value}
  {own : SectionKind → Value}

/-! ### Merging a layer -/

/-- A name that no method has and that does not begin with a low line. -/
def Open (name : String) : Prop :=
  name.toList.head? ≠ some '_' ∧ name ∉ ["ensure_dirs", "load"]

instance (name : String) : Decidable (Open name) :=
  inferInstanceAs (Decidable (name.toList.head? ≠ some '_' ∧ name ∉ ["ensure_dirs", "load"]))

theorem Open.free (isOpen : Open name) : name ∉ otherNames := by
  have reserved : ∀ other ∈ otherNames, other.toList.head? = some '_' ∨ other ∈ ["ensure_dirs", "load"] := by decide
  exact fun member => (reserved name member).elim isOpen.1 isOpen.2

/-- The value of something that settings have besides their sections. -/
def whole? (c : Settings) (name : String) : Option Value :=
  if name = "debug" then some c.debug
  else if (SectionKind.named? name).isSome then none
  else c.replacement? name

/-- Settings without what documents have put in the place of something else. -/
def bare (c : Settings) : Settings :=
  { c with own := [], shared := [] }

@[simp] theorem part_bare (c : Settings) (kind : SectionKind) : c.bare.part kind = c.part kind := by
  cases kind <;> rfl

@[simp] theorem value?_bare (c : Settings) (s : Store) (kind : SectionKind) (name : String) :
    c.bare.value? s kind name = c.value? s kind name := by
  unfold value?
  rw [part_bare]

theorem bare_setPart (c : Settings) (part : Part) (kind : SectionKind) :
    (c.setPart part kind).bare = c.bare.setPart part kind := by
  cases kind <;> rfl

theorem Sectioned.bare (sectioned : Sectioned s c own) : Sectioned s c.bare own where
  fields kind := (part_bare c kind).trans (sectioned.fields kind)
  mapping := sectioned.mapping
  apart := sectioned.apart

/-- What becomes of settings that take up what a layer says, section by section and setting by setting. The sections
are the same objects as before. -/
structure Covers (s : Store) (c : Settings) (data : Entries) (t : Store) (d : Settings) : Prop where
  sections : ∀ kind, d.part kind = c.part kind
  values : ∀ kind name, d.value? t kind name = (c.value? s kind name).map fun old => (given? s data kind name).getD old
  whole : ∀ name, d.whole? name = (c.whole? name).map fun old => (data.get? (.text name)).getD old
  shared : d.shared = c.shared
  elsewhere : ∀ w, (∀ kind, c.part kind ≠ .fields ⟨kind, w⟩) → t.cell? w = s.cell? w

theorem Covers.stable (covers : Covers s c data t d) (sectioned : Sectioned s c own) (apart : ∀ kind, v ≠ own kind) :
    t.entries? v = s.entries? v := by
  refine Store.entries?_congr (covers.elsewhere v fun kind same => ?_)
  rw [sectioned.fields, Part.fields.injEq, Section.mk.injEq] at same
  exact apart kind same.2.symm

/-- Only what settings have under a name that is neither a section nor the switch can be replaced. -/
theorem mergeOther_open (isOpen : Open name) (s : Store) (c : Settings) (v : Value) :
    mergeOther s c name v = .ok (if (c.replacement? name).isSome then { c with own := (name, v) :: c.own } else c) := by
  have differs (reserved : String) (member : reserved ∈ otherNames) : name ≠ reserved :=
    fun same => isOpen.free (same ▸ member)
  have known : c.has name = (c.replacement? name).isSome := by
    unfold has
    simp [isOpen.free]
  unfold mergeOther
  split
  · exact absurd rfl (differs "__dict__" (by decide))
  · exact absurd rfl (differs "__class__" (by decide))
  · simp only [checkReserved_free fun member => isOpen.free (List.mem_append_left _ member), known, bind, Except.bind]
    rfl

/-- An entry of a layer. -/
inductive Tells (s : Store) : String → Value → Prop
  /-- It says of a section what settings it has, perhaps with names that are unknown. -/
  | part (kind : SectionKind) {v : Value} {entries : Entries} (mapping : s.entries? v = some entries)
      (named : ∀ entry ∈ entries, ∃ name, entry.1 = .text name ∧ Open name) : Tells s kind.name v
  | other {name : String} (v : Value) (isOpen : Open name) (part : ∀ kind : SectionKind, name ≠ kind.name) : Tells s name v

theorem Tells.fits (tells : Tells s name v) : Fits s name v := by
  cases tells with
  | part kind mapping named =>
    refine .part kind mapping fun entry member => ?_
    obtain ⟨name, isText, isOpen⟩ := named entry member
    exact ⟨name, isText, fun reserved => isOpen.free (List.mem_append_left _ reserved)⟩
  | other v isOpen part =>
    by_cases switch : name = "debug"
    · exact switch ▸ .debug v
    · exact .unknown v part switch isOpen.free

theorem Tells.congr (tells : Tells s name v) (same : t.entries? v = s.entries? v) : Tells t name v := by
  cases tells with
  | part kind mapping named => exact .part kind (same.trans mapping) named
  | other v isOpen part => exact .other v isOpen part

@[simp] theorem whole?_name (c : Settings) (kind : SectionKind) : c.whole? kind.name = none := by
  cases kind <;> rfl

@[simp] theorem whole?_setPart (c : Settings) (part : Part) (kind : SectionKind) (name : String) :
    (c.setPart part kind).whole? name = c.whole? name := by
  cases kind <;> rfl

theorem replacement?_cons (c : Settings) (name : String) (v : Value) (key : String) :
    replacement? { c with own := (name, v) :: c.own } key = if name = key then some v else c.replacement? key := by
  unfold replacement?
  rw [List.lookup_cons]
  by_cases same : name = key
  · simp [same]
  · rw [if_neg same, show (key == name) = false from beq_eq_false_iff_ne.mpr (Ne.symm same)]

/-- An entry has the same effect whatever documents have put in the place of something before. -/
theorem mergeEntry_bare (tells : Tells s name v) (merged : mergeEntry s c.bare name v = .ok (t, d)) :
    ∃ e, mergeEntry s c name v = .ok (t, e) ∧ e.bare = d ∧ e.shared = c.shared ∧
      ∀ key, e.whole? key = (c.whole? key).map fun old => (Entries.get? [(.text name, v)] (.text key)).getD old := by
  cases tells with
  | part kind mapping named =>
    simp only [mergeEntry, named?_name, part_bare] at merged ⊢
    cases inner : mergePart s (c.part kind) v with
    | error fault => rw [inner] at merged; cases merged
    | ok result =>
      rw [inner] at merged
      cases merged
      refine ⟨_, rfl, bare_setPart .., shared_setPart .., fun key => ?_⟩
      rw [whole?_setPart, Entries.get?_cons_text]
      split
      next same => rw [← same, whole?_name]; rfl
      next => exact (map_getD_none _).symm
  | other v isOpen part =>
    by_cases switch : name = "debug"
    · subst switch
      cases merged
      refine ⟨_, rfl, rfl, rfl, fun key => ?_⟩
      rw [Entries.get?_cons_text]
      unfold whole?
      by_cases same : "debug" = key
      · simp [same.symm]
      · rw [if_neg (Ne.symm same), if_neg (Ne.symm same), if_neg same]
        exact (map_getD_none _).symm
    · simp only [mergeEntry, named?_eq_none part, if_neg switch, mergeOther_open isOpen, bind, Except.bind, pure,
        Except.pure] at merged ⊢
      have fresh : c.bare.replacement? name = none := rfl
      rw [fresh] at merged
      cases merged
      by_cases known : (c.replacement? name).isSome
      · rw [if_pos known]
        refine ⟨_, rfl, rfl, rfl, fun key => ?_⟩
        rw [Entries.get?_cons_text]
        split
        next same =>
          obtain ⟨old, held⟩ := Option.isSome_iff_exists.mp known
          subst same
          unfold whole?
          simp [switch, named?_eq_none part, held, replacement?_cons]
        next other =>
          refine Eq.trans ?_ (map_getD_none _).symm
          unfold whole?
          simp [replacement?_cons, other]
      · rw [if_neg known]
        refine ⟨_, rfl, rfl, rfl, fun key => ?_⟩
        rw [Entries.get?_cons_text]
        split
        next same =>
          have absent : c.whole? key = none := by
            unfold whole?
            rw [← same, if_neg switch, named?_eq_none part]
            simpa using known
          rw [absent]
          rfl
        next => exact (map_getD_none _).symm

theorem Tells.covered (tells : Tells s name v) (sectioned : Sectioned s c own)
    (distinct : ∀ entries, s.entries? v = some entries → entries.Distinct) :
    ∃ t d, mergeEntry s c name v = .ok (t, d) ∧ Covers s c [(.text name, v)] t d ∧ Sectioned t d own := by
  obtain ⟨t, d, merged, adopts, sectioned'⟩ := tells.fits.adopted sectioned.bare ⟨rfl, rfl⟩ distinct
  obtain ⟨e, merged', rfl, shared, whole⟩ := mergeEntry_bare tells merged
  have sections (kind : SectionKind) : e.part kind = c.part kind := by simpa using adopts.sections kind
  refine ⟨t, e, merged', ⟨sections, fun kind key => ?_, whole, shared, fun w other => ?_⟩, ⟨fun kind => ?_,
    sectioned'.mapping, sectioned'.apart⟩⟩
  · simpa using adopts.values kind key
  · exact adopts.elsewhere w fun kind same => other kind ((part_bare c kind).symm.trans same)
  · exact (sections kind).trans (sectioned.fields kind)

/-- A document that says what a later one says, where it says something, and what an earlier one says otherwise. Names
that the settings do not have may be treated in any way. -/
structure Overlays (s : Store) (c : Settings) (earlier later data : Entries) : Prop where
  part : ∀ kind name, given? s data kind name = (given? s later kind name).or (given? s earlier kind name)
  whole : ∀ name, (c.whole? name).isSome →
    data.get? (.text name) = (later.get? (.text name)).or (earlier.get? (.text name))

theorem overlays_self (s : Store) (c : Settings) (data : Entries) : Overlays s c data data data where
  part _ _ := Option.or_self.symm
  whole _ _ := Option.or_self.symm

theorem overlays_cons (s : Store) (c : Settings) (v : Value) (fresh : data.get? (.text name) = none) :
    Overlays s c [(.text name, v)] data ((.text name, v) :: data) where
  part kind key := by
    unfold given?
    rw [Entries.get?_cons_text, Entries.get?_cons_text]
    split
    next same => rw [← same, fresh]; rfl
    next => exact (Option.or_none ..).symm
  whole key _ := by
    rw [Entries.get?_cons_text, Entries.get?_cons_text]
    split
    next same => rw [← same, fresh]; rfl
    next => exact (Option.or_none ..).symm

/-- What is taken up one layer after the other is what their overlay says. -/
theorem Covers.trans (first : Covers s c earlier t d) (second : Covers t d later u e)
    (same : ∀ kind name, given? t later kind name = given? s later kind name) (overlays : Overlays s c earlier later data) :
    Covers s c data u e where
  sections kind := (second.sections kind).trans (first.sections kind)
  values kind key := by
    rw [second.values, first.values, Option.map_map, same, overlays.part]
    simp only [Function.comp_def, Option.getD_or]
  whole key := by
    rw [second.whole, first.whole, Option.map_map]
    cases known : c.whole? key with
    | none => rfl
    | some old =>
      rw [overlays.whole key (by rw [known]; rfl)]
      simp only [Option.map_some, Function.comp_def, Option.getD_or]
  shared := second.shared.trans first.shared
  elsewhere w other :=
    (second.elsewhere w fun kind => by rw [first.sections]; exact other kind).trans (first.elsewhere w other)

/-- Settings that are the same in two stores: the sections are the same objects with the same values, and whatever else
the settings have is the same. Nothing else in the stores differs. -/
structure Same (t : Store) (d : Settings) (u : Store) (e : Settings) : Prop where
  sections : ∀ kind, d.part kind = e.part kind
  values : ∀ kind name, d.value? t kind name = e.value? u kind name
  whole : ∀ name, d.whole? name = e.whole? name
  shared : d.shared = e.shared
  elsewhere : ∀ w, (∀ kind, d.part kind ≠ .fields ⟨kind, w⟩) → t.cell? w = u.cell? w

theorem Covers.same (first : Covers s c earlier t d) (second : Covers s c data u e)
    (overlays : Overlays s c earlier earlier data) : Same t d u e where
  sections kind := (first.sections kind).trans (second.sections kind).symm
  values kind key := by rw [first.values, second.values, overlays.part, Option.or_self]
  whole key := by
    rw [first.whole, second.whole]
    cases known : c.whole? key with
    | none => rfl
    | some old => rw [overlays.whole key (by rw [known]; rfl), Option.or_self]
  shared := first.shared.trans second.shared.symm
  elsewhere w other :=
    have apart (kind : SectionKind) : c.part kind ≠ .fields ⟨kind, w⟩ := first.sections kind ▸ other kind
    (first.elsewhere w apart).trans (second.elsewhere w apart).symm

/-- The entries of a layer, outside of what sections keep their values in. -/
structure Regular (s : Store) (own : SectionKind → Value) (data : Entries) : Prop where
  tells : ∀ entry ∈ data, ∃ name, entry.1 = .text name ∧ Tells s name entry.2
  outside : ∀ entry ∈ data, ∀ kind, entry.2 ≠ own kind

theorem Covers.regular (covers : Covers s c data t d) (sectioned : Sectioned s c own) (regular : Regular s own later) :
    Regular t own later where
  tells entry member := by
    obtain ⟨name, isText, tells⟩ := regular.tells entry member
    exact ⟨name, isText, tells.congr (covers.stable sectioned (regular.outside entry member))⟩
  outside := regular.outside

theorem Regular.tail {entry : Value × Value} (regular : Regular s own (entry :: data)) : Regular s own data where
  tells entry member := regular.tells entry (List.mem_cons_of_mem _ member)
  outside entry member := regular.outside entry (List.mem_cons_of_mem _ member)

/-- What a layer says of the sections is the same after another one has been merged. -/
theorem Covers.given?_later (covers : Covers s c data t d) (sectioned : Sectioned s c own) (regular : Regular s own later)
    (kind : SectionKind) (name : String) : given? t later kind name = given? s later kind name := by
  unfold given?
  cases found : later.get? (.text kind.name) with
  | none => rfl
  | some v =>
    simp only [Option.bind_eq_bind, Option.bind_some,
      covers.stable sectioned (regular.outside _ (Entries.mem_get? found))]

theorem mergeEntries_covered (sectioned : Sectioned s c own) (regular : Regular s own data) (distinct : data.Distinct)
    (within : ∀ entry ∈ data, ∀ entries, s.entries? entry.2 = some entries → entries.Distinct) :
    ∃ t d, mergeEntries s c data = .ok (t, d) ∧ Covers s c data t d ∧ Sectioned t d own := by
  induction data generalizing s c with
  | nil =>
    refine ⟨s, c, rfl, ⟨fun _ => rfl, fun _ _ => (map_getD_none _).symm, fun _ => (map_getD_none _).symm, rfl,
      fun _ _ => rfl⟩, sectioned⟩
  | cons entry rest ih =>
    obtain ⟨key, v⟩ := entry
    obtain ⟨name, rfl, tells⟩ := regular.tells _ List.mem_cons_self
    obtain ⟨t, d, merged, covers, sectioned'⟩ := tells.covered sectioned (within _ List.mem_cons_self)
    obtain ⟨u, e, further, covers', sectioned''⟩ := ih sectioned' (covers.regular sectioned regular.tail)
      (List.pairwise_cons.mp distinct).2 fun entry member entries found => by
        rw [covers.stable sectioned (regular.tail.outside entry member)] at found
        exact within entry (List.mem_cons_of_mem _ member) entries found
    refine ⟨u, e, ?_, covers.trans covers' (covers.given?_later sectioned regular.tail) (overlays_cons s c v distinct.fresh),
      sectioned''⟩
    simp only [mergeEntries, nameOf, bind, Except.bind, merged, further]

/-- A document that can be a layer of settings: it says of sections what settings they have, and all its other keys are
names as well, that no method has and that do not begin with a low line. It lies outside of what sections keep their
values in. -/
structure Layer (s : Store) (own : SectionKind → Value) (document : Value) (data : Entries) : Prop
    extends Regular s own data where
  mapping : s.entries? document = some data
  apart : ∀ kind, document ≠ own kind

theorem merge_covered (sound : s.WellFormed) (layer : Layer s own document data) (kept : ∀ v, (∀ kind, v ≠ own kind) →
    t.entries? v = s.entries? v) (regular : Regular t own data) (sectioned : Sectioned t c own) :
    ∃ u d, merge t c document = .ok (u, d) ∧ Covers t c data u d ∧ Sectioned u d own := by
  obtain ⟨u, d, merged, covers, sectioned'⟩ := mergeEntries_covered sectioned regular (sound.distinct layer.mapping)
    fun entry member entries found => sound.distinct ((kept _ (layer.outside entry member)).symm.trans found)
  refine ⟨u, d, ?_, covers, sectioned'⟩
  unfold merge
  rw [kept document layer.apart, layer.mapping]
  exact merged

/-! ### The order of keys -/

/-- Entries with one key and one value, or, where the settings do not take the value as a whole, with mappings that have
the same entries in perhaps another order. -/
def Alike (s : Store) (c : Settings) (first last : Value × Value) : Prop :=
  first.1 = last.1 ∧ (first.2 = last.2 ∨ (∀ name, first.1 = .text name → c.whole? name = none) ∧
    ∃ entries others, s.entries? first.2 = some entries ∧ s.entries? last.2 = some others ∧ entries.Perm others)

/-- The same document with its keys in another order, at the top or inside of sections. -/
def Reordered (s : Store) (c : Settings) (data others : Entries) : Prop :=
  ∃ between, List.Forall₂ (Alike s c) data between ∧ between.Perm others

theorem Alike.found {others : Entries} (alike : List.Forall₂ (Alike s c) data others) (name : String) :
    (data.get? (.text name) = none ∧ others.get? (.text name) = none) ∨
      ∃ v w, data.get? (.text name) = some v ∧ others.get? (.text name) = some w ∧
        Alike s c (.text name, v) (.text name, w) := by
  induction alike with
  | nil => exact Or.inl ⟨rfl, rfl⟩
  | @cons first last rest others head _ ih =>
    unfold Entries.get? at ih ⊢
    rw [List.find?_cons, List.find?_cons, ← head.1]
    cases fits : first.1.sameKey (.text name) with
    | false => exact ih
    | true =>
      have isText := Value.sameKey_text fits
      exact Or.inr ⟨first.2, last.2, rfl, rfl, rfl, isText ▸ head.2⟩

theorem Reordered.overlays {others : Entries} (reordered : Reordered s c data others) (sound : s.WellFormed)
    (distinct : data.Distinct) : Overlays s c data data others := by
  obtain ⟨between, alike, same⟩ := reordered
  have keys : data.map (·.1) = between.map (·.1) := by
    rw [← List.forall₂_eq_eq_eq, List.forall₂_map_left_iff, List.forall₂_map_right_iff]
    exact alike.imp fun _ _ alike => alike.1
  have apart : Entries.Distinct between := by
    have whole (entries : Entries) :
        entries.Distinct ↔ (entries.map (·.1)).Pairwise (fun first last => first.sameKey last = false) := by
      rw [List.pairwise_map]
      rfl
    rw [whole, ← keys, ← whole]
    exact distinct
  constructor
  · intro kind name
    rw [Option.or_self]
    unfold given?
    rw [← Entries.get?_perm same apart]
    obtain ⟨absent, absent'⟩ | ⟨v, w, found, found', -, equal⟩ := Alike.found alike kind.name
    · rw [absent, absent']
    · rw [found, found']
      obtain rfl | ⟨-, entries, others, mapping, mapping', permuted⟩ := equal
      · rfl
      · simp only [Option.bind_eq_bind, Option.bind_some, mapping, mapping']
        exact (Entries.get?_perm permuted (sound.distinct mapping) name).symm
  · intro name known
    rw [Option.or_self, ← Entries.get?_perm same apart]
    obtain ⟨absent, absent'⟩ | ⟨v, w, found, found', -, equal⟩ := Alike.found alike name
    · rw [absent, absent']
    · obtain rfl | ⟨unknown, -⟩ := equal
      · rw [found, found']
      · rw [unknown name rfl] at known
        cases known

/-! ### The overlay of two documents -/

/-- What a document says of a section. -/
def partOf (s : Store) (data : Entries) (kind : SectionKind) : Entries :=
  ((data.get? (.text kind.name)).bind s.entries?).getD []

theorem given?_eq (s : Store) (data : Entries) (kind : SectionKind) (name : String) :
    given? s data kind name = (partOf s data kind).get? (.text name) := by
  unfold given? partOf
  cases data.get? (.text kind.name) with
  | none => rfl
  | some v =>
    simp only [Option.bind_eq_bind, Option.bind_some]
    cases s.entries? v <;> rfl

/-- Where an overlay has what it says of a section. -/
def placeOf (s : Store) : SectionKind → Nat
  | .observability => s.cells.size
  | .interpreter => s.cells.size + 1
  | .runtime => s.cells.size + 2

/-- What an overlay says of the sections. -/
def partsOf (s : Store) : Entries :=
  SectionKind.all.map fun kind => (.text kind.name, .ref (placeOf s kind))

/-- The overlay of two documents, section by section and name by name. -/
def overlay (s : Store) (earlier later : Entries) : Entries :=
  (partsOf s).atop (later.atop earlier)

/-- A store that holds the overlay of two documents as well. -/
def withOverlay (s : Store) (earlier later : Entries) : Store :=
  let part := fun kind => Cell.map ((partOf s later kind).atop (partOf s earlier kind))
  { s with cells := s.cells ++
      #[part .observability, part .interpreter, part .runtime, .map (overlay s earlier later)] }

theorem cell?_added (s : Store) (earlier later : Entries) (k : Nat) :
    (withOverlay s earlier later).cell? (.ref (s.cells.size + k)) =
      #[Cell.map ((partOf s later .observability).atop (partOf s earlier .observability)),
        .map ((partOf s later .interpreter).atop (partOf s earlier .interpreter)),
        .map ((partOf s later .runtime).atop (partOf s earlier .runtime)), .map (overlay s earlier later)][k]? := by
  unfold withOverlay Store.cell?
  dsimp only
  rw [Array.getElem?_append_right (Nat.le_add_right ..), Nat.add_sub_cancel_left]

theorem entries?_placeOf (s : Store) (earlier later : Entries) (kind : SectionKind) :
    (withOverlay s earlier later).entries? (.ref (placeOf s kind)) =
      some ((partOf s later kind).atop (partOf s earlier kind)) :=
  Store.entries?_eq_some.mpr <| by
    cases kind
    · exact cell?_added s earlier later 0
    · exact cell?_added s earlier later 1
    · exact cell?_added s earlier later 2

theorem entries?_overlay (s : Store) (earlier later : Entries) :
    (withOverlay s earlier later).entries? (.ref (s.cells.size + 3)) = some (overlay s earlier later) :=
  Store.entries?_eq_some.mpr (cell?_added s earlier later 3)

theorem entries?_kept (earlier later : Entries) (inside : s.entries? v = some entries) :
    (withOverlay s earlier later).entries? v = some entries := by
  refine (Store.entries?_congr ?_).trans inside
  cases v with
  | scalar _ | tuple _ => rfl
  | ref place =>
    have held : s.cells[place]? = some (.map entries) := Store.entries?_eq_some.mp inside
    show ((withOverlay s earlier later).cells)[place]? = s.cells[place]?
    exact Array.getElem?_append_left (Array.getElem?_eq_some_iff.mp held).1

theorem withOverlay_cases (found : (withOverlay s earlier later).entries? v = some entries) :
    s.entries? v = some entries ∨ (∃ kind, entries = (partOf s later kind).atop (partOf s earlier kind)) ∨
      entries = overlay s earlier later := by
  cases v with
  | scalar _ | tuple _ => cases found
  | ref place =>
    by_cases inside : place < s.cells.size
    · refine Or.inl ((Store.entries?_congr ?_).trans found)
      exact (Array.getElem?_append_left inside).symm
    · obtain ⟨k, rfl⟩ := Nat.exists_eq_add_of_le (Nat.le_of_not_lt inside)
      have held := (cell?_added s earlier later k).symm.trans (Store.entries?_eq_some.mp found)
      obtain _ | _ | _ | _ | k := k
      · exact Or.inr (Or.inl ⟨.observability, (Cell.map.inj (Option.some.inj held)).symm⟩)
      · exact Or.inr (Or.inl ⟨.interpreter, (Cell.map.inj (Option.some.inj held)).symm⟩)
      · exact Or.inr (Or.inl ⟨.runtime, (Cell.map.inj (Option.some.inj held)).symm⟩)
      · exact Or.inr (Or.inr (Cell.map.inj (Option.some.inj held)).symm)
      · simp at held

theorem entries?_beyond (s : Store) (k : Nat) : s.entries? (.ref (s.cells.size + k)) = none := by
  simp [Store.entries?, Store.cell?]

theorem Sectioned.within (sectioned : Sectioned s c own) (kind : SectionKind) (k : Nat) :
    Value.ref (s.cells.size + k) ≠ own kind := by
  intro same
  have mapping := sectioned.mapping kind
  rw [← same, entries?_beyond] at mapping
  cases mapping

theorem placeOf_beyond (s : Store) (kind : SectionKind) : ∃ k, placeOf s kind = s.cells.size + k ∧ k < 3 := by
  cases kind
  · exact ⟨0, rfl, by decide⟩
  · exact ⟨1, rfl, by decide⟩
  · exact ⟨2, rfl, by decide⟩

theorem mem_partOf {entry : Value × Value} {kind : SectionKind} (member : entry ∈ partOf s data kind) :
    ∃ v entries, (.text kind.name, v) ∈ data ∧ s.entries? v = some entries ∧ entry ∈ entries := by
  unfold partOf at member
  cases found : data.get? (.text kind.name) with
  | none => simp [found] at member
  | some v =>
    cases mapping : s.entries? v with
    | none => simp [found, mapping] at member
    | some entries => exact ⟨v, entries, Entries.mem_get? found, mapping, by simpa [found, mapping] using member⟩

theorem partOf_distinct (sound : s.WellFormed) (data : Entries) (kind : SectionKind) : (partOf s data kind).Distinct := by
  unfold partOf
  cases found : (data.get? (.text kind.name)).bind s.entries? with
  | none => exact List.Pairwise.nil
  | some entries =>
    obtain ⟨v, -, mapping⟩ := Option.bind_eq_some_iff.mp found
    exact sound.distinct mapping

/-- An overlay holds nothing but what the documents do, and what it says of sections. -/
theorem mem_overlay {entry : Value × Value} (member : entry ∈ overlay s earlier later) :
    (∃ kind, entry = (.text (SectionKind.name kind), .ref (placeOf s kind))) ∨ entry ∈ later ∨ entry ∈ earlier := by
  refine (Entries.mem_atop member).imp (fun part => ?_) Entries.mem_atop
  obtain ⟨kind, -, rfl⟩ := List.mem_map.mp part
  exact ⟨kind, rfl⟩

theorem overlay_distinct (s : Store) (earlier later : Entries) : (overlay s earlier later).Distinct := by
  have names : SectionKind.all.Pairwise fun first last => first.name ≠ last.name := by decide
  have parts : (partsOf s).Distinct :=
    List.pairwise_map.mpr (names.imp fun differs => Bool.eq_false_iff.mpr (mt Value.sameKey_texts.mp differs))
  exact parts.atop _

theorem withOverlay_sound (sound : s.WellFormed) {first last : Value} (mapping : s.entries? first = some earlier)
    (mapping' : s.entries? last = some later) : (withOverlay s earlier later).WellFormed := by
  have size : (withOverlay s earlier later).cells.size = s.cells.size + 4 := by simp [withOverlay]
  constructor
  · intro v entries found
    obtain old | ⟨kind, rfl⟩ | rfl := withOverlay_cases found
    · exact sound.distinct old
    · exact (partOf_distinct sound later kind).atop _
    · exact overlay_distinct s earlier later
  · intro v entries found entry member place isPlace
    rw [size]
    have old {w : Value} {entries : Entries} (mapping : s.entries? w = some entries) (member : entry ∈ entries) :
        place < s.cells.size + 4 :=
      Nat.lt_add_right 4 (sound.inside mapping entry member place isPlace)
    obtain mapping | ⟨kind, rfl⟩ | rfl := withOverlay_cases found
    · exact old mapping member
    · obtain newer | older := Entries.mem_atop member
      · obtain ⟨w, entries, -, mapping, member⟩ := mem_partOf newer
        exact old mapping member
      · obtain ⟨w, entries, -, mapping, member⟩ := mem_partOf older
        exact old mapping member
    · obtain ⟨kind, rfl⟩ | newer | older := mem_overlay member
      · obtain ⟨k, same, small⟩ := placeOf_beyond s kind
        cases isPlace
        omega
      · exact old mapping' newer
      · exact old mapping older

theorem Tells.named {kind : SectionKind} (tells : Tells s kind.name v) : ∃ entries, s.entries? v = some entries ∧
    ∀ entry ∈ entries, ∃ name, entry.1 = .text name ∧ Open name := by
  generalize called : kind.name = name at tells
  cases tells with
  | part other mapping named => exact ⟨_, mapping, named⟩
  | other v isOpen part => exact absurd called.symm (part kind)

theorem Regular.mem {name : String} (regular : Regular s own data) (member : (.text name, v) ∈ data) : Tells s name v := by
  obtain ⟨name', isText, tells⟩ := regular.tells _ member
  cases isText
  exact tells

/-- What a layer says of a section is the same in a store with an overlay. -/
theorem partOf_withOverlay (regular : Regular s own data) (earlier later : Entries) (kind : SectionKind) :
    partOf (withOverlay s earlier later) data kind = partOf s data kind := by
  unfold partOf
  cases found : data.get? (.text kind.name) with
  | none => rfl
  | some v =>
    obtain ⟨entries, mapping, -⟩ := (regular.mem (Entries.mem_get? found)).named
    rw [Option.bind_some, Option.bind_some, mapping, entries?_kept earlier later mapping]

theorem overlay_layer (sectioned : Sectioned s c own) (first : Regular s own earlier) (last : Regular s own later) :
    Layer (withOverlay s earlier later) own (.ref (s.cells.size + 3)) (overlay s earlier later) where
  mapping := entries?_overlay s earlier later
  apart kind := sectioned.within kind 3
  tells entry member := by
    have kept {data : Entries} (regular : Regular s own data) (member : entry ∈ data) :
        ∃ name, entry.1 = .text name ∧ Tells (withOverlay s earlier later) name entry.2 := by
      obtain ⟨name, isText, tells⟩ := regular.tells entry member
      refine ⟨name, isText, ?_⟩
      cases tells with
      | part kind mapping named => exact .part kind (entries?_kept earlier later mapping) named
      | other v isOpen part => exact .other _ isOpen part
    obtain ⟨kind, rfl⟩ | newer | older := mem_overlay member
    · refine ⟨kind.name, rfl, .part kind (entries?_placeOf s earlier later kind) fun inner member => ?_⟩
      have named {data : Entries} (regular : Regular s own data) (member : inner ∈ partOf s data kind) :
          ∃ name, inner.1 = .text name ∧ Open name := by
        obtain ⟨v, entries, within, mapping, member⟩ := mem_partOf member
        obtain ⟨entries', mapping', named⟩ := (regular.mem within).named
        cases mapping.symm.trans mapping'
        exact named inner member
      exact (Entries.mem_atop member).elim (named last) (named first)
    · exact kept last newer
    · exact kept first older
  outside entry member kind := by
    obtain ⟨part, rfl⟩ | newer | older := mem_overlay member
    · obtain ⟨k, same, -⟩ := placeOf_beyond s part
      rw [same]
      exact sectioned.within kind k
    · exact last.outside entry newer kind
    · exact first.outside entry older kind

theorem get?_partsOf (s : Store) (kind : SectionKind) :
    (partsOf s).get? (.text kind.name) = some (.ref (placeOf s kind)) := by
  cases kind <;> rfl

theorem get?_partsOf_other (s : Store) (part : ∀ kind : SectionKind, name ≠ kind.name) :
    (partsOf s).get? (.text name) = none := by
  show Entries.get? ((.text (SectionKind.name .observability), _) :: (.text (SectionKind.name .interpreter), _) ::
    (.text (SectionKind.name .runtime), _) :: []) _ = none
  rw [Entries.get?_cons_text, Entries.get?_cons_text, Entries.get?_cons_text, if_neg (Ne.symm (part _)),
    if_neg (Ne.symm (part _)), if_neg (Ne.symm (part _))]
  rfl

/-- It says what the later document says, and otherwise what the earlier one says. -/
theorem overlay_overlays (c : Settings) (first : Regular s own earlier) (last : Regular s own later) :
    Overlays (withOverlay s earlier later) c earlier later (overlay s earlier later) where
  part kind name := by
    have within : partOf (withOverlay s earlier later) (overlay s earlier later) kind =
        (partOf s later kind).atop (partOf s earlier kind) := by
      have found : (overlay s earlier later).get? (.text kind.name) = some (.ref (placeOf s kind)) := by
        unfold overlay
        rw [Entries.get?_atop, get?_partsOf, Option.some_or]
      unfold partOf
      rw [found, Option.bind_some, entries?_placeOf]
      rfl
    simp only [given?_eq, within, Entries.get?_atop, partOf_withOverlay first, partOf_withOverlay last]
  whole name known := by
    have part (kind : SectionKind) : name ≠ kind.name := by
      rintro rfl
      simp at known
    unfold overlay
    rw [Entries.get?_atop, Entries.get?_atop, get?_partsOf_other s part, Option.none_or]

/-! ### Layers compose -/

/-- Merging two layers one after the other comes to the same as merging their overlay once. There is such an overlay, a
layer merged again changes nothing, and the order of keys does not matter. -/
theorem layers_compose (sound : s.WellFormed) (sectioned : Sectioned s c own) {first last : Value}
    (layer : Layer s own first earlier) (layer' : Layer s own last later) :
    ∃ t d u e, merge s c first = .ok (t, d) ∧ merge t d last = .ok (u, e) ∧
      (∀ document data, Layer s own document data → Overlays s c earlier later data →
        ∃ t' d', merge s c document = .ok (t', d') ∧ Same u e t' d') ∧
      (∃ t' d', merge t d first = .ok (t', d') ∧ Same t d t' d') ∧
      (∀ document data, Layer s own document data → Reordered s c earlier data →
        ∃ t' d', merge s c document = .ok (t', d') ∧ Same t d t' d') ∧
      ∃ more document data, (∀ v entries, s.entries? v = some entries → more.entries? v = some entries) ∧
        more.WellFormed ∧ Layer more own document data ∧ Overlays more c earlier later data := by
  have merges {document : Value} {data : Entries} (layer : Layer s own document data) :
      ∃ t d, merge s c document = .ok (t, d) ∧ Covers s c data t d ∧ Sectioned t d own :=
    merge_covered sound layer (fun _ _ => rfl) layer.toRegular sectioned
  obtain ⟨t, d, merged, covers, sectioned'⟩ := merges layer
  have again {document : Value} {data : Entries} (layer : Layer s own document data) :
      ∃ u e, merge t d document = .ok (u, e) ∧ Covers t d data u e ∧ Sectioned u e own :=
    merge_covered sound layer (fun v apart => covers.stable sectioned apart) (covers.regular sectioned layer.toRegular)
      sectioned'
  obtain ⟨u, e, merged', covers', -⟩ := again layer'
  refine ⟨t, d, u, e, merged, merged', fun document data layer overlays => ?_, ?_, fun document data other reordered => ?_,
    withOverlay s earlier later, .ref (s.cells.size + 3), overlay s earlier later,
    fun v entries inside => entries?_kept earlier later inside, withOverlay_sound sound layer.mapping layer'.mapping,
    overlay_layer sectioned layer.toRegular layer'.toRegular, overlay_overlays c layer.toRegular layer'.toRegular⟩
  · obtain ⟨t', d', once, covers'', -⟩ := merges layer
    have both := covers.trans covers' (covers.given?_later sectioned layer'.toRegular) overlays
    exact ⟨t', d', once, both.same covers'' (overlays_self s c data)⟩
  · obtain ⟨t', d', twice, covers'', -⟩ := again layer
    have both := covers.trans covers'' (covers.given?_later sectioned layer.toRegular) (overlays_self s c earlier)
    exact ⟨t', d', twice, covers.same both (overlays_self s c earlier)⟩
  · obtain ⟨t', d', once, covers'', -⟩ := merges other
    exact ⟨t', d', once, covers.same covers'' (reordered.overlays sound (sound.distinct layer.mapping))⟩

/-- Two documents that say something of the same section and one that says what both do, each before what it says of
the section, and then the values of sections, of which none is given yet. -/
private def stackedPairs : List (List (String × Value)) :=
  [[("observability", .ref 1), ("debug", .bool true), ("bogus", .int 1)],
   [("log_dir", .text "logs"), ("log_file", .text "a")],
   [("observability", .ref 3)], [("nonsense", .int 2), ("log_dir", .text "elsewhere")],
   [("debug", .bool true), ("observability", .ref 5)],
   [("log_file", .text "a"), ("nonsense", .int 2), ("log_dir", .text "elsewhere")], [], [], []]

private def stackedEntries (place : Nat) : Entries :=
  (stackedPairs[place]?.getD []).map fun (name, v) => (.text name, v)

private def stacked : Store where
  cells := (stackedPairs.map fun pairs => Cell.map (pairs.map fun (name, v) => (.text name, v))).toArray

private def stackedOwn : SectionKind → Value
  | .observability => .ref 6
  | .interpreter => .ref 7
  | .runtime => .ref 8

private def stackedSettings : Settings where
  observability := .fields ⟨.observability, .ref 6⟩
  interpreter := .fields ⟨.interpreter, .ref 7⟩
  runtime := .fields ⟨.runtime, .ref 8⟩

/-- Whether a value is no place outside of the store. -/
private def stackedPlace : Value → Bool
  | .ref place => place < 9
  | _ => true

private theorem stacked_sound : stacked.WellFormed := by
  have among {v : Value} {entries : Entries} (found : stacked.entries? v = some entries) :
      ∃ pairs ∈ stackedPairs, entries = pairs.map fun (name, v) => (.text name, v) := by
    cases v with
    | scalar _ | tuple _ => cases found
    | ref place =>
      have held : stacked.cells[place]? = some (.map entries) := Store.entries?_eq_some.mp found
      obtain ⟨pairs, member, same⟩ := List.mem_map.mp (List.mem_toArray.mp (Array.mem_of_getElem? held))
      exact ⟨pairs, member, (Cell.map.inj same).symm⟩
  constructor
  · intro v entries found
    obtain ⟨pairs, member, rfl⟩ := among found
    have distinct : ∀ pairs ∈ stackedPairs, (pairs.map (·.1)).Nodup := by decide
    exact Entries.distinct_names (distinct pairs member)
  · intro v entries found entry within place isPlace
    obtain ⟨pairs, member, rfl⟩ := among found
    obtain ⟨pair, among, rfl⟩ := List.mem_map.mp within
    have inside : ∀ pairs ∈ stackedPairs, ∀ pair ∈ pairs, stackedPlace pair.2 = true := by decide
    have placed := inside pairs member pair among
    rw [show pair.2 = .ref place from isPlace] at placed
    exact of_decide_eq_true placed

private theorem stacked_sectioned : Sectioned stacked stackedSettings stackedOwn where
  fields kind := by cases kind <;> rfl
  mapping kind := by cases kind <;> rfl
  apart first last same := by cases first <;> cases last <;> simp_all [stackedOwn]

private theorem stacked_part {place : Nat} (names : ∀ pair ∈ stackedPairs[place]?.getD [], Open pair.1)
    (inside : stacked.entries? (.ref place) = some (stackedEntries place)) :
    Tells stacked "observability" (.ref place) := by
  refine .part .observability inside fun entry member => ?_
  obtain ⟨pair, among, rfl⟩ := List.mem_map.mp member
  exact ⟨pair.1, rfl, names pair among⟩

private theorem stacked_layer {place : Nat} (document : place = 0 ∨ place = 2 ∨ place = 4) :
    Layer stacked stackedOwn (.ref place) (stackedEntries place) := by
  have debug : Tells stacked "debug" (.bool true) := .other _ (by decide) fun kind => by cases kind <;> decide
  have bogus : Tells stacked "bogus" (.int 1) := .other _ (by decide) fun kind => by cases kind <;> decide
  have first : Tells stacked "observability" (.ref 1) := stacked_part (by decide) rfl
  have last : Tells stacked "observability" (.ref 3) := stacked_part (by decide) rfl
  have both : Tells stacked "observability" (.ref 5) := stacked_part (by decide) rfl
  have within (n : Nat) (small : n < 6) (kind : SectionKind) : Value.ref n ≠ stackedOwn kind := by
    cases kind <;> simp [stackedOwn] <;> omega
  have scalar (x : Scalar) (kind : SectionKind) : Value.scalar x ≠ stackedOwn kind := by
    cases kind <;> simp [stackedOwn]
  have whole : ∀ entry ∈ stackedEntries place,
      (∃ name, entry.1 = .text name ∧ Tells stacked name entry.2) ∧ ∀ kind, entry.2 ≠ stackedOwn kind := by
    intro entry member
    obtain rfl | rfl | rfl := document <;> simp [stackedEntries, stackedPairs] at member
    · obtain rfl | rfl | rfl := member
      exacts [⟨⟨_, rfl, first⟩, within 1 (by decide)⟩, ⟨⟨_, rfl, debug⟩, scalar _⟩, ⟨⟨_, rfl, bogus⟩, scalar _⟩]
    · subst member
      exact ⟨⟨_, rfl, last⟩, within 3 (by decide)⟩
    · obtain rfl | rfl := member
      exacts [⟨⟨_, rfl, debug⟩, scalar _⟩, ⟨⟨_, rfl, both⟩, within 5 (by decide)⟩]
  refine ⟨⟨fun entry member => (whole entry member).1, fun entry member => (whole entry member).2⟩, ?_, within _ (by omega)⟩
  obtain rfl | rfl | rfl := document <;> rfl

/-- What the later document leaves unsaid is as the earlier one says, and so it is by the one that says what both do. -/
theorem stacked_compose : stacked.WellFormed ∧ Sectioned stacked stackedSettings stackedOwn ∧
    Layer stacked stackedOwn (.ref 0) (stackedEntries 0) ∧ Layer stacked stackedOwn (.ref 2) (stackedEntries 2) ∧
    ∃ t d u e t' d', merge stacked stackedSettings (.ref 0) = .ok (t, d) ∧ merge t d (.ref 2) = .ok (u, e) ∧
      merge stacked stackedSettings (.ref 4) = .ok (t', d') ∧ Same u e t' d' ∧
      e.value? u .observability "log_dir" = some (.text "elsewhere") := by
  have layer := stacked_layer (Or.inl rfl)
  have layer' := stacked_layer (Or.inr (Or.inl rfl))
  obtain ⟨t, d, u, e, merged, merged', overlaid, -⟩ := layers_compose stacked_sound stacked_sectioned layer layer'
  have overlays : Overlays stacked stackedSettings (stackedEntries 0) (stackedEntries 2) (stackedEntries 4) := by
    constructor
    · intro kind name
      cases kind with
      | interpreter | runtime => rfl
      | observability =>
        show (stackedEntries 5).get? (.text name) =
          ((stackedEntries 3).get? (.text name)).or ((stackedEntries 1).get? (.text name))
        have none : Entries.get? [] (.text name) = none := rfl
        simp only [stackedEntries, stackedPairs, List.getElem?_cons_succ, List.getElem?_cons_zero, Option.getD_some,
          List.map_cons, List.map_nil, Entries.get?_cons_text, none]
        grind
    · intro name known
      have switch : name = "debug" := by
        by_contra other
        simp [whole?, other, replacement?, stackedSettings] at known
      subst switch
      rfl
  obtain ⟨t', d', once, same⟩ := overlaid (.ref 4) _ (stacked_layer (Or.inr (Or.inr rfl))) overlays
  refine ⟨stacked_sound, stacked_sectioned, layer, layer', t, d, u, e, t', d', merged, merged', once, same, ?_⟩
  rw [same.values]
  have value := congrArg (fun result => result.toOption.bind fun made => made.2.value? made.1 .observability "log_dir") once
  exact value.symm

end Settings

end Interaction
