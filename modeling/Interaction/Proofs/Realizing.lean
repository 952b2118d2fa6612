import Mathlib.Data.List.Forall2
import Interaction.Proofs.Building
import Interaction.Proofs.Interchange
import Interaction.Proofs.Keys
import Interaction.Proofs.Switching

/-! The values of nodes without tags of their own, where the keys of mappings are quoted texts and no node is merged into
another. Every collection that is met gets a container, which is filled with the values of its parts in the end, so that
only a text that cannot be read keeps the value of a document from being made. -/

namespace Interaction

namespace Entries

/-- Entries with others put into them, one after the other. -/
def putAll (found others : Entries) : Entries :=
  others.foldl (fun found entry => found.put entry.1 entry.2) found

theorem put_length (found : Entries) (key v : Value) : (found.put key v).length ≤ found.length + 1 := by
  induction found with
  | nil => exact Nat.le_refl _
  | cons entry rest ih =>
    unfold put
    split
    · exact Nat.le_succ _
    · exact Nat.succ_le_succ ih

theorem put_new {found : Entries} {key : Value} (new : ∀ entry ∈ found, entry.1.sameKey key = false) (v : Value) :
    found.put key v = found ++ [(key, v)] := by
  induction found with
  | nil => rfl
  | cons entry rest ih =>
    obtain ⟨other, later⟩ := List.forall_mem_cons.mp new
    rw [put, other, ih later]
    rfl

theorem put_longer {found : Entries} {key v : Value} (longer : (found.put key v).length = found.length + 1) :
    found.put key v = found ++ [(key, v)] := by
  induction found with
  | nil => rfl
  | cons entry rest ih =>
    unfold put at longer ⊢
    split at longer
    · simp at longer
    next other => rw [if_neg other, ih (by simpa using longer)]; rfl

theorem putAll_length (found others : Entries) : (found.putAll others).length ≤ found.length + others.length := by
  induction others generalizing found with
  | nil => exact Nat.le_refl _
  | cons entry rest ih =>
    have first := put_length found entry.1 entry.2
    have more := ih (found.put entry.1 entry.2)
    rw [List.length_cons]
    exact Nat.le_trans more (by omega)

theorem putAll_longest {found others : Entries} (longest : (found.putAll others).length = found.length + others.length) :
    found.putAll others = found ++ others := by
  induction others generalizing found with
  | nil => exact (List.append_nil found).symm
  | cons entry rest ih =>
    have first := put_length found entry.1 entry.2
    have more := putAll_length (found.put entry.1 entry.2) rest
    have split : found.putAll (entry :: rest) = (found.put entry.1 entry.2).putAll rest := rfl
    rw [split, List.length_cons] at longest
    rw [split, ih (by omega), put_longer (by omega), List.append_assoc]
    rfl

theorem putAll_apart {found others : Entries}
    (apart : (found ++ others).Pairwise fun entry other => entry.1.sameKey other.1 = false) :
    found.putAll others = found ++ others := by
  induction others generalizing found with
  | nil => exact (List.append_nil found).symm
  | cons entry rest ih =>
    have split : found.putAll (entry :: rest) = (found.put entry.1 entry.2).putAll rest := rfl
    have new : ∀ other ∈ found, other.1.sameKey entry.1 = false := fun other member =>
      (List.pairwise_append.mp apart).2.2 other member entry List.mem_cons_self
    rw [List.append_cons] at apart ⊢
    rw [split, put_new new, ih apart]

end Entries

namespace Document.Builder

open Schema

variable {b after last : Builder} {id k : Nat} {text : String} {extra : List Nat}

/-! ### Nodes without tags -/

/-- The name of the tag that a text without one has. -/
def textTag (b : Builder) (id : Nat) (text : String) : String :=
  if (b.node id).resolved then b.schema.tagOf text.toList else "str"

/-- What a text stands for under its tag. -/
def reading (b : Builder) (id : Nat) (text : String) : Except Fault Scalar :=
  readScalar (b.textTag id text) text.toList

/-- Some text cannot be read. -/
def Unreadable (b : Builder) (fault : Fault) : Prop :=
  ∃ id text, (b.node id).content = .scalar text ∧ b.reading id text = .error fault

/-- Nodes without tags, where the keys of mappings are quoted texts. -/
structure Simple (b : Builder) : Prop where
  schema : b.schema = Schema.model
  untagged : ∀ id, (b.node id).tag = none
  items : ∀ id items, (b.node id).content = .sequence items → ∀ i ∈ items, i < b.values.size
  entries : ∀ id entries, (b.node id).content = .mapping entries → entries.length ≤ b.nodes.size ∧
    ∀ entry ∈ entries, entry.1 < b.values.size ∧ entry.2 < b.values.size ∧
      ∃ text, (b.node entry.1).content = .scalar text ∧ (b.node entry.1).resolved = false

theorem Simple.same (simple : b.Simple) (schema : after.schema = b.schema) (nodes : after.nodes = b.nodes)
    (size : after.values.size = b.values.size) : after.Simple := by
  have node (id : Nat) : after.node id = b.node id := by rw [Builder.node, nodes, Builder.node]
  refine ⟨schema.trans simple.schema, fun id => by rw [node]; exact simple.untagged id, fun id items held => ?_,
    fun id entries held => ?_⟩
  · rw [size]
    exact simple.items id items (by rw [← node]; exact held)
  · rw [nodes, size]
    simp only [node]
    exact simple.entries id entries (by rw [← node]; exact held)

theorem Simple.tag_text (simple : b.Simple) (content : (b.node id).content = .scalar text) :
    b.tag id = standardTag ++ b.textTag id text := by
  simp only [Builder.tag, simple.untagged, content, textTag]

theorem Simple.tag_sequence (simple : b.Simple) {items : List Nat} (content : (b.node id).content = .sequence items) :
    b.tag id = standardTag ++ "seq" := by
  simp only [Builder.tag, simple.untagged, content]

theorem Simple.tag_mapping (simple : b.Simple) {entries : List (Nat × Nat)} (content : (b.node id).content = .mapping entries) :
    b.tag id = standardTag ++ "map" := by
  simp only [Builder.tag, simple.untagged, content]

theorem Simple.textTag_single (simple : b.Simple) (id : Nat) (text : String) : b.textTag id text ∉ collectionTags := by
  have modelTags (text : List Char) : Schema.model.tagOf text = "bool" ∨ Schema.model.tagOf text = others.tagOf text :=
    (Classical.em (Spells truths text)).imp model_bool model_other
  unfold textTag
  split
  · rw [simple.schema]
    exact tags_single _ modelTags _
  · decide

/-! ### What is made of nodes -/

/-- How much is left to be done: nodes without a value, and collections to be filled. -/
def pending (b : Builder) : Nat :=
  b.values.countP Option.isNone + b.empty.length

/-- A container holds the values of the parts of a collection. -/
def Contains (b : Builder) (id : Nat) (cell : Cell) : Prop :=
  match (b.node id).content with
  | .scalar _ => True
  | .sequence items => ∃ vs, cell = .list vs ∧ List.Forall₂ (fun i v => b.found? i = some v) items vs
  | .mapping entries => ∃ kvs, cell = .map (Entries.putAll [] kvs) ∧
      List.Forall₂ (fun entry kv => b.found? entry.1 = some kv.1 ∧ b.found? entry.2 = some kv.2) entries kvs

def Filled (b : Builder) (id place : Nat) : Prop :=
  ∃ cell, b.store.cells[place]? = some cell ∧ b.Contains id cell

/-- The values so far are those of their nodes. A text is what it stands for, each collection has a container of its own,
and the containers are filled but for those that are still to be. -/
structure Sound (b : Builder) (extra : List Nat) : Prop where
  text : ∀ id text v, (b.node id).content = .scalar text → b.found? id = some v →
    ∃ x, b.reading id text = .ok x ∧ Json.IsScalar x v
  place : ∀ id v, (∀ text, (b.node id).content ≠ .scalar text) → b.found? id = some v →
    ∃ place, v = .ref place ∧ place < b.store.cells.size
  apart : ∀ id other place, b.found? id = some (.ref place) → b.found? other = some (.ref place) → id = other
  waiting : ∀ id ∈ b.empty, ∃ place, b.found? id = some (.ref place)
  filled : ∀ id place, b.found? id = some (.ref place) → id ∉ b.empty → id ∉ extra → b.Filled id place

/-- Going on: values stay as they are, containers hold what they held, and there is no more to be done than before. -/
structure Furthers (b after : Builder) : Prop where
  schema : after.schema = b.schema
  nodes : after.nodes = b.nodes
  size : after.values.size = b.values.size
  found : ∀ id v, b.found? id = some v → after.found? id = some v
  cells : ∀ place < b.store.cells.size, after.store.cells[place]? = b.store.cells[place]?
  empty : ∀ id ∈ b.empty, id ∈ after.empty
  pending : after.pending ≤ b.pending
  sound : ∀ extra, b.Sound extra → after.Sound extra

theorem Furthers.refl (b : Builder) : b.Furthers b :=
  ⟨rfl, rfl, rfl, fun _ _ found => found, fun _ _ => rfl, fun _ member => member, Nat.le_refl _, fun _ sound => sound⟩

theorem Furthers.node (furthers : b.Furthers after) (id : Nat) : after.node id = b.node id := by
  rw [Builder.node, furthers.nodes, Builder.node]

theorem Furthers.trans (first : b.Furthers after) (second : after.Furthers last) : b.Furthers last where
  schema := second.schema.trans first.schema
  nodes := second.nodes.trans first.nodes
  size := second.size.trans first.size
  found id v found := second.found id v (first.found id v found)
  cells place inside := by
    have held : after.store.cells[place]? ≠ none := by
      rw [first.cells place inside, Ne, Array.getElem?_eq_none_iff]
      omega
    have within : place < after.store.cells.size := by
      rw [Ne, Array.getElem?_eq_none_iff] at held
      omega
    exact (second.cells place within).trans (first.cells place inside)
  empty id member := second.empty id (first.empty id member)
  pending := Nat.le_trans second.pending first.pending
  sound extra sound := second.sound extra (first.sound extra sound)

theorem Furthers.simple (furthers : b.Furthers after) (simple : b.Simple) : after.Simple :=
  simple.same furthers.schema furthers.nodes furthers.size

theorem Unreadable.before (furthers : b.Furthers after) {fault : Fault} (unreadable : after.Unreadable fault) :
    b.Unreadable fault := by
  obtain ⟨id, text, content, failed⟩ := unreadable
  rw [furthers.node] at content
  refine ⟨id, text, content, ?_⟩
  rw [← failed, reading, reading, textTag, textTag, furthers.node, furthers.schema]

theorem Contains.later (nodes : ∀ id, after.node id = b.node id) (found : ∀ id v, b.found? id = some v → after.found? id = some v)
    {cell : Cell} (contains : b.Contains id cell) : after.Contains id cell := by
  unfold Contains at contains ⊢
  rw [nodes]
  split at contains
  · exact trivial
  · exact contains.imp fun vs holds => ⟨holds.1, holds.2.imp fun i v => found i v⟩
  · exact contains.imp fun kvs holds => ⟨holds.1, holds.2.imp fun entry kv both => ⟨found _ _ both.1, found _ _ both.2⟩⟩

theorem Filled.later (nodes : ∀ id, after.node id = b.node id) (found : ∀ id v, b.found? id = some v → after.found? id = some v)
    {place : Nat} (cell : after.store.cells[place]? = b.store.cells[place]?) (filled : b.Filled id place) :
    after.Filled id place := by
  obtain ⟨held, there, contains⟩ := filled
  exact ⟨held, cell.trans there, contains.later nodes found⟩

/-! ### Values -/

theorem found?_keep (inside : id < b.values.size) (v : Value) (k : Nat) :
    (b.keep id v).found? k = if k = id then some v else b.found? k := by
  unfold found? keep
  rw [Array.getElem?_setIfInBounds]
  split_ifs with same other
  · rfl
  · exact absurd same.symm other
  · exact absurd (by omega) same
  · rfl

theorem pending_keep (inside : id < b.values.size) (fresh : b.found? id = none) (v : Value) :
    (b.keep id v).values.countP Option.isNone + 1 = b.values.countP Option.isNone := by
  have unset : b.values[id] = none := by
    unfold found? at fresh
    rw [Array.getElem?_eq_getElem inside] at fresh
    exact fresh
  have some : 0 < b.values.countP Option.isNone :=
    Array.countP_pos_iff.mpr ⟨none, unset ▸ Array.getElem_mem inside, rfl⟩
  rw [keep, Array.setIfInBounds, dif_pos inside, Array.countP_set inside, unset]
  simp only [Option.isNone_none, Option.isNone_some, if_true, Bool.false_eq_true, if_false]
  omega

theorem not_isScalar_ref {x : Scalar} {place : Nat} : ¬ Json.IsScalar x (.ref place) := by
  rintro ⟨s, same⟩
  unfold Store.own at same
  split at same
  · split at same <;> cases same
  · cases same

theorem Sound.collection (sound : b.Sound extra) {place : Nat} (found : b.found? id = some (.ref place)) :
    (∀ text, (b.node id).content ≠ .scalar text) ∧ place < b.store.cells.size := by
  have untold : ∀ text, (b.node id).content ≠ .scalar text := by
    intro text content
    obtain ⟨x, -, scalar⟩ := sound.text id text _ content found
    exact not_isScalar_ref scalar
  obtain ⟨there, same, inside⟩ := sound.place id _ untold found
  cases same
  exact ⟨untold, inside⟩

/-- The builder after a node has got its value, which may have to be filled. -/
def given (b : Builder) (id : Nat) (v : Value) (store : Store) (more : List Nat) : Builder :=
  { b with store, empty := b.empty ++ more }.keep id v

variable {store : Store} {more : List Nat} {v : Value}

theorem Sound.given (sound : b.Sound extra) (inside : id < b.values.size) (fresh : b.found? id = none)
    (grown : b.store.cells.size ≤ store.cells.size)
    (cells : ∀ place < b.store.cells.size, store.cells[place]? = b.store.cells[place]?)
    (read : ∀ text, (b.node id).content = .scalar text → ∃ x, b.reading id text = .ok x ∧ Json.IsScalar x v)
    (placed : (∀ text, (b.node id).content ≠ .scalar text) →
      v = .ref b.store.cells.size ∧ b.store.cells.size < store.cells.size ∧ id ∈ more)
    (waits : ∀ k ∈ more, k = id ∧ ∃ place, v = .ref place) : (b.given id v store more).Sound extra := by
  have node (k : Nat) : (b.given id v store more).node k = b.node k := rfl
  have found (k : Nat) : (b.given id v store more).found? k = if k = id then some v else b.found? k :=
    found?_keep (b := { b with store, empty := b.empty ++ more }) inside v k
  have kept (k : Nat) (w : Value) (held : b.found? k = some w) : (b.given id v store more).found? k = some w := by
    rw [found, if_neg (by rintro rfl; rw [fresh] at held; cases held), held]
  -- The place of the new value, if it has one, is new.
  have new (place : Nat) (same : v = .ref place) : place = b.store.cells.size ∧ id ∈ more := by
    have untold : ∀ text, (b.node id).content ≠ .scalar text := by
      intro text content
      obtain ⟨x, -, scalar⟩ := read text content
      exact not_isScalar_ref (same ▸ scalar)
    obtain ⟨there, -, member⟩ := placed untold
    rw [same] at there
    cases there
    exact ⟨rfl, member⟩
  constructor
  case text =>
    intro k text w content held
    rw [found] at held
    split at held
    next same => cases held; rw [same] at content ⊢; exact read text content
    next => exact sound.text k text w content held
  case place =>
    intro k w untold held
    rw [found] at held
    split at held
    next same =>
      cases held
      rw [same] at untold
      obtain ⟨there, room, -⟩ := placed untold
      exact ⟨_, there, room⟩
    next =>
      obtain ⟨place, there, room⟩ := sound.place k w untold held
      exact ⟨place, there, Nat.lt_of_lt_of_le room grown⟩
  case apart =>
    intro k other place held held'
    rw [found] at held held'
    split at held
    next first =>
      split at held'
      next second => rw [first, second]
      next =>
        cases held
        have old := (sound.collection held').2
        have fresh := (new place rfl).1
        omega
    next =>
      split at held'
      next =>
        cases held'
        have old := (sound.collection held).2
        have fresh := (new place rfl).1
        omega
      next => exact sound.apart k other place held held'
  case waiting =>
    intro k member
    obtain old | new := List.mem_append.mp member
    · exact (sound.waiting k old).imp fun place held => kept k _ held
    · obtain ⟨rfl, place, rfl⟩ := waits k new
      exact ⟨place, (found k).trans (if_pos rfl)⟩
  case filled =>
    intro k place held unmet unexcused
    have old : k ∉ b.empty := fun member => unmet (List.mem_append_left _ member)
    rw [found] at held
    split at held
    next same =>
      cases held
      exact absurd (List.mem_append_right _ (same ▸ (new place rfl).2)) unmet
    next => exact (sound.filled k place held old unexcused).later node kept (cells place (sound.collection held).2)

theorem furthers_given (inside : id < b.values.size) (fresh : b.found? id = none) (few : more.length ≤ 1)
    (cells : ∀ place < b.store.cells.size, store.cells[place]? = b.store.cells[place]?)
    (sound : ∀ extra, b.Sound extra → (b.given id v store more).Sound extra) : b.Furthers (b.given id v store more) where
  schema := rfl
  nodes := rfl
  size := Array.size_setIfInBounds
  found k w held := by
    have found := found?_keep (b := { b with store, empty := b.empty ++ more }) inside v k
    exact found.trans (by rw [if_neg (by rintro rfl; rw [fresh] at held; cases held)]; exact held)
  cells := cells
  empty k member := List.mem_append_left _ member
  pending := by
    have less := pending_keep (b := { b with store, empty := b.empty ++ more }) inside fresh v
    have longer : (b.given id v store more).empty.length = b.empty.length + more.length := List.length_append
    show (b.given id v store more).values.countP Option.isNone + (b.given id v store more).empty.length ≤
      b.values.countP Option.isNone + b.empty.length
    have same : (b.given id v store more).values.countP Option.isNone + 1 = b.values.countP Option.isNone := less
    omega
  sound := sound

theorem value_text (simple : b.Simple) (content : (b.node id).content = .scalar text) (fresh : b.found? id = none)
    (inside : id < b.values.size) : Yields (b.value id) (fun r => b.Furthers r.1 ∧ r.1.found? id = some r.2) b.Unreadable := by
  rw [value_scalar content fresh (simple.tag_text content) (simple.textTag_single id text)]
  show Yields ((b.reading id text).map _) _ _
  cases read : b.reading id text with
  | error fault => exact .fails ⟨id, text, content, read⟩
  | ok x =>
    have cells : (b.store.own x).1.cells = b.store.cells := by
      unfold Store.own
      split
      · split <;> rfl
      · rfl
    have same : ({ b with store := (b.store.own x).1 } : Builder).keep id (b.store.own x).2 =
        b.given id (b.store.own x).2 (b.store.own x).1 [] := by
      rw [Builder.given, List.append_nil]
    have keeps : ∀ place < b.store.cells.size, (b.store.own x).1.cells[place]? = b.store.cells[place]? :=
      fun place _ => by rw [cells]
    have texts : ∀ text', (b.node id).content = .scalar text' →
        ∃ x', b.reading id text' = .ok x' ∧ Json.IsScalar x' (b.store.own x).2 := by
      intro text' content'
      cases content.symm.trans content'
      exact ⟨x, read, b.store, rfl⟩
    refine .done ⟨?_, ?_⟩
    · dsimp only
      rw [same]
      exact furthers_given inside fresh (Nat.zero_le _) keeps fun extra sound =>
        sound.given inside fresh (Nat.le_of_eq (by rw [cells])) keeps texts (fun untold => absurd content (untold text)) (by simp)
    · exact (found?_keep (b := { b with store := (b.store.own x).1 }) inside _ id).trans (if_pos rfl)

/-- The containers of collections, before they are filled. -/
def vacant : Content → Option Cell
  | .scalar _ => none
  | .sequence _ => some (.list [])
  | .mapping _ => some (.map [])

theorem value_collection (simple : b.Simple) {cell : Cell} (content : vacant (b.node id).content = some cell)
    (fresh : b.found? id = none) : b.value id = .ok (b.reserve id cell) := by
  have named (name : String) (tagged : b.tag id = standardTag ++ name) :
      String.ofList ((b.tag id).toList.drop standardTag.length) = name ∧
        standardTag.toList.isPrefixOf (b.tag id).toList = true := by
    rw [tagged, String.toList_append, ← String.length_toList, List.drop_left, String.ofList_toList,
      List.isPrefixOf_iff_prefix]
    exact ⟨rfl, List.prefix_append ..⟩
  unfold value
  rw [fresh]
  dsimp only
  cases held : (b.node id).content with
  | scalar text => rw [held] at content; cases content
  | sequence items =>
    rw [held] at content
    cases content
    obtain ⟨name, standard⟩ := named "seq" (simple.tag_sequence held)
    rw [standard, name]
    rfl
  | mapping entries =>
    rw [held] at content
    cases content
    obtain ⟨name, standard⟩ := named "map" (simple.tag_mapping held)
    rw [standard, name]
    rfl

theorem value_furthers (simple : b.Simple) (inside : id < b.values.size) :
    Yields (b.value id) (fun r => b.Furthers r.1 ∧ r.1.found? id = some r.2) b.Unreadable := by
  cases fresh : b.found? id with
  | some v =>
    unfold value
    rw [fresh]
    exact .done ⟨.refl b, fresh⟩
  | none =>
    cases content : vacant (b.node id).content with
    | none =>
      cases held : (b.node id).content with
      | scalar text => exact value_text simple held fresh inside
      | sequence items => rw [held] at content; cases content
      | mapping entries => rw [held] at content; cases content
    | some cell =>
      rw [value_collection simple content fresh]
      have keeps : ∀ place < b.store.cells.size, (b.store.add cell).1.cells[place]? = b.store.cells[place]? :=
        fun place room => Array.getElem?_push_lt room ▸ (Array.getElem?_eq_getElem room).symm
      have grown : b.store.cells.size < (b.store.add cell).1.cells.size :=
        Nat.lt_of_lt_of_eq (Nat.lt_succ_self _) (Array.size_push _).symm
      have untold : ∀ text, (b.node id).content ≠ .scalar text := by
        intro text held
        rw [held] at content
        cases content
      refine .done ⟨?_, ?_⟩
      · have few : [id].length ≤ 1 := Nat.le_refl _
        exact furthers_given inside fresh few keeps fun extra sound => sound.given inside fresh (Nat.le_of_lt grown) keeps
          (fun text held => absurd held (untold text)) (fun _ => ⟨rfl, grown, List.mem_singleton_self id⟩)
          fun k member => ⟨List.mem_singleton.mp member, _, rfl⟩
      · exact (found?_keep (b := { b with store := (b.store.add cell).1, empty := b.empty ++ [id] }) inside _ id).trans
          (if_pos rfl)

/-! ### Parts of collections -/

theorem valuesOf_furthers (simple : b.Simple) {ids : List Nat} (inside : ∀ i ∈ ids, i < b.values.size) :
    Yields (b.valuesOf ids) (fun r => b.Furthers r.1 ∧ List.Forall₂ (fun i v => r.1.found? i = some v) ids r.2)
      b.Unreadable := by
  induction ids generalizing b with
  | nil => exact .done ⟨.refl b, .nil⟩
  | cons i ids ih =>
    obtain ⟨first, later⟩ := List.forall_mem_cons.mp inside
    refine (value_furthers simple first).bind fun r here => ?_
    obtain ⟨furthers, found⟩ := here
    have further := ih (furthers.simple simple) fun i member => by rw [furthers.size]; exact later i member
    refine ((further.mono (fun _ good => good) fun _ => .before furthers).bind fun r' there => ?_)
    obtain ⟨more, founds⟩ := there
    exact .done ⟨furthers.trans more, .cons (more.found i _ found) founds⟩

theorem Sound.key (sound : b.Sound extra) (content : (b.node id).content = .scalar text)
    (quoted : (b.node id).resolved = false) {v : Value} (found : b.found? id = some v) : v = .text text := by
  obtain ⟨x, read, s, same⟩ := sound.text id text v content found
  have tag : b.textTag id text = "str" := by rw [textTag, quoted]; rfl
  rw [reading, tag] at read
  have reads : readScalar "str" text.toList = .ok (.text (String.ofList text.toList)) := rfl
  rw [reads, String.ofList_toList] at read
  cases read
  exact same.symm

theorem pairs_furthers (simple : b.Simple) (sound : b.Sound extra) (found : Entries) {entries : List (Nat × Nat)}
    (inside : ∀ entry ∈ entries, entry.1 < b.values.size ∧ entry.2 < b.values.size ∧
      ∃ text, (b.node entry.1).content = .scalar text ∧ (b.node entry.1).resolved = false) :
    Yields (b.pairs found entries) (fun r => b.Furthers r.1 ∧ ∃ kvs, r.2 = found.putAll kvs ∧
      List.Forall₂ (fun entry kv => r.1.found? entry.1 = some kv.1 ∧ r.1.found? entry.2 = some kv.2) entries kvs)
      b.Unreadable := by
  -- A key is a text, so it is no container, and its value is the next to be put in.
  induction entries generalizing b found with
  | nil => exact .done ⟨.refl b, [], rfl, .nil⟩
  | cons entry entries ih =>
    obtain ⟨key, value⟩ := entry
    obtain ⟨⟨first, second, text, content, quoted⟩, later⟩ := List.forall_mem_cons.mp inside
    refine (value_furthers simple first).bind fun r here => ?_
    obtain ⟨c, k⟩ := r
    obtain ⟨named, known⟩ := here
    have kept : k = .text text := (named.sound extra sound).key (by rw [named.node]; exact content)
      (by rw [named.node]; exact quoted) known
    have free : (c.store.container? k).isSome = false := by rw [kept]; rfl
    dsimp only
    rw [free]
    have simple' := named.simple simple
    refine ((value_furthers simple' (by rw [named.size]; exact second)).mono (fun _ good => good)
      fun _ => .before named).bind fun r there => ?_
    obtain ⟨d, v⟩ := r
    obtain ⟨valued, held⟩ := there
    have both := named.trans valued
    have further := ih (both.simple simple) (both.sound extra sound) (found.put k v) fun entry member => by
      rw [both.size, both.node]
      exact later entry member
    refine (further.mono ?_ fun _ => .before both)
    rintro r ⟨more, kvs, put, founds⟩
    exact ⟨both.trans more, (k, v) :: kvs, put, .cons ⟨more.found _ _ (valued.found _ _ known), more.found _ _ held⟩ founds⟩

theorem Simple.key_tag (simple : b.Simple) (content : (b.node id).content = .scalar text)
    (quoted : (b.node id).resolved = false) {name : String} (other : name ≠ "str") : b.hasTag id name = false := by
  have tag : b.tag id = standardTag ++ "str" := by
    rw [simple.tag_text content, textTag, quoted]
    rfl
  rw [Bool.eq_false_iff, Ne, hasTag_iff, tag]
  exact fun same => other ((String.append_right_inj _).mp same).symm

theorem flattenFrom_simple (simple : b.Simple) {entries : List (Nat × Nat)} (content : (b.node id).content = .mapping entries)
    {index fuel : Nat} (inside : index ≤ entries.length) (enough : entries.length < index + fuel) :
    b.flattenFrom id index [] fuel = .ok b := by
  have held : b.entries id = entries := by rw [Builder.entries, content]
  induction fuel generalizing index with
  | zero => omega
  | succ fuel ih =>
    unfold flattenFrom
    rw [held]
    cases here : entries[index]? with
    | none => rfl
    | some entry =>
      obtain ⟨room, rfl⟩ := List.getElem?_eq_some_iff.mp here
      obtain ⟨-, -, text, key, quoted⟩ := (simple.entries id entries content).2 _ (List.getElem_mem room)
      simp only [simple.key_tag key quoted (by decide : "merge" ≠ "str"), simple.key_tag key quoted (by decide : "value" ≠ "str"),
        Bool.false_eq_true, if_false]
      exact ih room (by omega)

theorem flatten_simple (simple : b.Simple) {entries : List (Nat × Nat)} (content : (b.node id).content = .mapping entries) :
    b.flatten id b.flattenBound = .ok b := by
  have few := (simple.entries id entries content).1
  have large : b.nodes.size + 2 ≤ b.flattenBound :=
    Nat.le_trans (Nat.le_mul_of_pos_right _ (Nat.succ_pos _)) (Nat.le_mul_of_pos_right _ (Nat.succ_pos _))
  obtain ⟨fuel, bound⟩ : ∃ fuel, b.flattenBound = fuel + 1 := ⟨b.flattenBound - 1, by omega⟩
  rw [bound]
  exact flattenFrom_simple simple content (Nat.zero_le _) (by omega)

theorem cell_furthers (simple : b.Simple) (sound : b.Sound extra) (untold : ∀ text, (b.node id).content ≠ .scalar text) :
    Yields (b.cell id) (fun r => b.Furthers r.1 ∧ r.1.Contains id r.2) b.Unreadable := by
  have tagged {name other : String} (tag : b.tag id = standardTag ++ name) : b.hasTag id other = decide (name = other) := by
    unfold hasTag
    rw [tag]
    simp
  cases content : (b.node id).content with
  | scalar text => exact absurd content (untold text)
  | sequence items =>
    have tag := simple.tag_sequence content
    unfold cell
    rw [tagged tag, tagged tag, tagged tag]
    simp only [content]
    refine (valuesOf_furthers simple (simple.items id items content)).bind fun r there => ?_
    refine .done ⟨there.1, ?_⟩
    unfold Contains
    rw [there.1.node, content]
    exact ⟨r.2, rfl, there.2⟩
  | mapping entries =>
    have tag := simple.tag_mapping content
    have mapping : b.isMapping id = true := by rw [isMapping, content]
    have held : b.entries id = entries := by rw [Builder.entries, content]
    have parts := pairs_furthers simple sound [] (simple.entries id entries content).2
    unfold cell mappingOf
    rw [tagged tag, mapping, flatten_simple simple content]
    show Yields (b.pairs [] (b.entries id) >>= fun r => pure (r.1, Cell.map r.2)) _ _
    rw [held]
    refine parts.bind fun r there => ?_
    obtain ⟨furthers, kvs, put, founds⟩ := there
    refine .done ⟨furthers, ?_⟩
    unfold Contains
    rw [furthers.node, content]
    exact ⟨kvs, congrArg Cell.map put, founds⟩

/-! ### Filling collections -/

theorem Sound.set (sound : b.Sound [id]) {place : Nat} {cell : Cell} (found : b.found? id = some (.ref place))
    (contains : b.Contains id cell) : ({ b with store := b.store.set place cell } : Builder).Sound [] := by
  let filled : Builder := { b with store := b.store.set place cell }
  have size : filled.store.cells.size = b.store.cells.size := Array.size_setIfInBounds
  have room := (sound.collection found).2
  refine ⟨sound.text, fun k v untold held => ?_, sound.apart, sound.waiting, fun k other held unmet _ => ?_⟩
  · exact (sound.place k v untold held).imp fun place there => ⟨there.1, Nat.lt_of_lt_of_eq there.2 size.symm⟩
  · by_cases same : k = id
    · subst same
      cases found.symm.trans held
      refine ⟨cell, ?_, contains⟩
      exact (Array.getElem?_setIfInBounds_self).trans (if_pos room)
    · have apart : place ≠ other := fun alike => same (sound.apart k id place (alike ▸ held) found)
      have kept : filled.store.cells[other]? = b.store.cells[other]? := Array.getElem?_setIfInBounds_ne apart
      have old : b.Filled k other := sound.filled k other held unmet (by simpa using same)
      have nodes : ∀ id, filled.node id = b.node id := fun _ => rfl
      have same : ∀ id v, b.found? id = some v → filled.found? id = some v := fun _ _ held => held
      exact old.later nodes same kept

/-- What filling all collections leads to: the values that were there, and no collection that is still to be filled. -/
structure Finishes (b after : Builder) : Prop where
  schema : after.schema = b.schema
  nodes : after.nodes = b.nodes
  found : ∀ id v, b.found? id = some v → after.found? id = some v
  sound : after.Sound []
  empty : after.empty = []

/-- All collections are filled, unless some text cannot be read. Each step fills one of those that are left, and those
that are met meanwhile had no value before. -/
theorem fillAll_finishes (simple : b.Simple) (sound : b.Sound []) {fuel : Nat} (enough : b.pending ≤ fuel) :
    Yields (b.fillAll fuel) b.Finishes b.Unreadable := by
  induction fuel generalizing b with
  | zero =>
    have none : b.empty = [] := List.length_eq_zero_iff.mp (by unfold pending at enough; omega)
    exact .done ⟨rfl, rfl, fun _ _ found => found, sound, none⟩
  | succ fuel ih =>
    cases waits : b.empty with
    | nil =>
      unfold fillAll
      rw [waits]
      exact .done ⟨rfl, rfl, fun _ _ found => found, sound, waits⟩
    | cons id rest =>
      let c : Builder := { b with empty := rest }
      have simple' : c.Simple := simple.same rfl rfl rfl
      have sound' : c.Sound [id] := by
        refine ⟨sound.text, sound.place, sound.apart, fun k member => ?_, fun k place found unmet other => ?_⟩
        · exact sound.waiting k (waits ▸ List.mem_cons_of_mem _ member)
        · refine sound.filled k place found ?_ List.not_mem_nil
          rw [waits, List.mem_cons, not_or]
          exact ⟨List.mem_singleton.not.mp other, unmet⟩
      obtain ⟨place, found⟩ := sound.waiting id (waits ▸ List.mem_cons_self)
      have less : c.pending + 1 = b.pending := by
        show b.values.countP Option.isNone + rest.length + 1 = b.values.countP Option.isNone + b.empty.length
        rw [waits, List.length_cons]
        omega
      unfold fillAll
      rw [waits]
      refine (cell_furthers (b := c) simple' sound' (sound.collection found).1).bind fun r there => ?_
      obtain ⟨d, cell⟩ := r
      obtain ⟨furthers, contains⟩ := there
      have found' : d.found? id = some (.ref place) := furthers.found id _ found
      dsimp only
      rw [found']
      dsimp only
      let e : Builder := { d with store := d.store.set place cell }
      have fills := ih (b := e) ((furthers.simple simple').same rfl rfl rfl)
        ((furthers.sound _ sound').set found' contains) (by
          have fewer : e.pending ≤ c.pending := furthers.pending
          omega)
      refine fills.mono (fun last finishes => ?_) fun fault unreadable => ?_
      · exact ⟨finishes.schema.trans furthers.schema, finishes.nodes.trans furthers.nodes,
          fun k v held => finishes.found k v (furthers.found k v held), finishes.sound, finishes.empty⟩
      · exact Unreadable.before (b := c) furthers unreadable

end Document.Builder

end Interaction
