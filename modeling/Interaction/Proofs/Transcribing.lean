import Interaction.Proofs.Assembling
import Interaction.Proofs.Folding
import Interaction.Proofs.ModelFiles
import Interaction.Proofs.Realizing

/-! Model files with texts of the format of interchange. Such a text is read as what it means exactly if it is legible:
the values of its nodes are those of its parts, except for numbers and strings that are read otherwise. -/

namespace Interaction

open Document

namespace Json

/-! ### The nodes of parts -/

mutual

/-- The nodes from one on are those of a value. -/
def Stands (node : Nat → Node) : Json → Nat → Prop
  | .null, n => node n = leafNode "null".toList true
  | .bool b, n => node n = leafNode (if b then "true".toList else "false".toList) true
  | .number x, n => node n = leafNode x.chars true
  | .string ps, n => node n = stringNode ps
  | .array items _, n => node n = { tag := none, content := .sequence (items.ids (n + 1)) } ∧ items.Stand node (n + 1)
  | .object entries _, n => node n = { tag := none, content := .mapping (entries.ids (n + 1)) } ∧ entries.Stand node (n + 1)

def Items.Stand (node : Nat → Node) : Items → Nat → Prop
  | .nil, _ => True
  | .cons _ item _ rest, n => item.Stands node n ∧ rest.Stand node (n + item.size)

def Entries.Stand (node : Nat → Node) : Entries → Nat → Prop
  | .nil, _ => True
  | .cons _ key _ _ item _ rest, n =>
    node n = stringNode key ∧ item.Stands node (n + 1) ∧ rest.Stand node (n + 1 + item.size)

end

variable {node : Nat → Node} {x : Node} {text : String} {limit : Nat} {p : Prop}

/-- Nodes that stand one after the other from a place on. -/
def Run (node : Nat → Node) (n : Nat) (nodes : List Node) : Prop :=
  ∀ k x, nodes[k]? = some x → node (n + k) = x

theorem run_cons {n : Nat} {nodes : List Node} (run : Run node n (x :: nodes)) : node n = x ∧ Run node (n + 1) nodes := by
  refine ⟨run 0 x rfl, fun k y found => ?_⟩
  rw [Nat.add_right_comm]
  exact run (k + 1) y found

theorem run_append {n : Nat} {nodes others : List Node} (run : Run node n (nodes ++ others)) :
    Run node n nodes ∧ Run node (n + nodes.length) others := by
  refine ⟨fun k y found => run k y ?_, fun k y found => ?_⟩
  · rw [List.getElem?_append_left (List.getElem?_eq_some_iff.mp found).1, found]
  · rw [Nat.add_assoc]
    refine run (nodes.length + k) y ?_
    rw [List.getElem?_append_right (Nat.le_add_right _ _), Nat.add_sub_cancel_left, found]

mutual

theorem nodes_stand (json : Json) (n : Nat) (run : Run node n (json.nodes n)) : json.Stands node n := by
  cases json with
  | null | bool | number | string => exact (run_cons run).1
  | array items inner =>
    obtain ⟨root, parts⟩ := run_cons run
    exact ⟨root, items_stand items _ parts⟩
  | object entries inner =>
    obtain ⟨root, parts⟩ := run_cons run
    exact ⟨root, entries_stand entries _ parts⟩

theorem items_stand (items : Items) (n : Nat) (run : Run node n (items.nodes n)) : items.Stand node n := by
  cases items with
  | nil => trivial
  | cons _ item _ rest =>
    obtain ⟨first, later⟩ := run_append run
    rw [nodes_length] at later
    exact ⟨nodes_stand item n first, items_stand rest _ later⟩

theorem entries_stand (entries : Json.Entries) (n : Nat) (run : Run node n (entries.nodes n)) : entries.Stand node n := by
  cases entries with
  | nil => trivial
  | cons _ key _ _ item _ rest =>
    obtain ⟨named, more⟩ := run_cons run
    obtain ⟨first, later⟩ := run_append more
    rw [nodes_length] at later
    exact ⟨named, nodes_stand item _ first, entries_stand rest _ later⟩

end

/-- The nodes of a value are those of keys, and the first ones of its parts. -/
inductive Part (node : Nat → Node) (limit : Nat) (p : Prop) : Node → Prop
  | key (ps : List Piece) : Part node limit p (stringNode ps)
  | value (json : Json) {n : Nat} (stands : json.Stands node n) (room : n + json.size ≤ limit) (legible : p → json.Legible) :
    Part node limit p (node n)

mutual

/-- What is said of the parts is said of the nodes: this is the only induction over them. -/
theorem nodes_parts (json : Json) (n : Nat) (stands : json.Stands node n) (room : n + json.size ≤ limit)
    (legible : p → json.Legible) : ∀ x ∈ json.nodes n, Part node limit p x := by
  have here : Part node limit p (node n) := .value json stands room legible
  cases json with
  | null | bool | number | string =>
    intro x member
    cases List.mem_singleton.mp member
    exact stands ▸ here
  | array items inner =>
    have parts := items_parts items (n + 1) stands.2 (by rw [size] at room; omega) fun holds => (legible holds).1
    rw [stands.1] at here
    exact List.forall_mem_cons.mpr ⟨here, parts⟩
  | object entries inner =>
    have parts := entries_parts entries (n + 1) stands.2 (by rw [size] at room; omega) fun holds => (legible holds).1
    rw [stands.1] at here
    exact List.forall_mem_cons.mpr ⟨here, parts⟩

theorem items_parts (items : Items) (n : Nat) (stand : items.Stand node n) (room : n + items.size ≤ limit)
    (legible : p → items.Legible) : ∀ x ∈ items.nodes n, Part node limit p x := by
  cases items with
  | nil => exact fun x member => absurd member List.not_mem_nil
  | cons _ item _ rest =>
    rw [Items.size] at room
    have first := nodes_parts item n stand.1 (by omega) fun holds => (legible holds).2.1
    have later := items_parts rest (n + item.size) stand.2 (by omega) fun holds => (legible holds).2.2
    exact List.forall_mem_append.mpr ⟨first, later⟩

theorem entries_parts (entries : Json.Entries) (n : Nat) (stand : entries.Stand node n) (room : n + entries.size ≤ limit)
    (legible : p → entries.Legible) : ∀ x ∈ entries.nodes n, Part node limit p x := by
  cases entries with
  | nil => exact fun x member => absurd member List.not_mem_nil
  | cons _ key _ _ item _ rest =>
    rw [Entries.size] at room
    have first := nodes_parts item (n + 1) stand.2.1 (by omega) fun holds => (legible holds).2.2.2.1
    have later := entries_parts rest (n + 1 + item.size) stand.2.2 (by omega) fun holds => (legible holds).2.2.2.2
    exact List.forall_mem_cons.mpr ⟨.key key, List.forall_mem_append.mpr ⟨first, later⟩⟩

end

theorem size_pos (json : Json) : 0 < json.size := by
  cases json <;> exact Nat.succ_pos _

theorem items_inside (items : Items) (n : Nat) : ∀ i ∈ items.ids n, i < n + items.size := by
  cases items with
  | nil => exact fun i member => absurd member List.not_mem_nil
  | cons _ item _ rest =>
    have some := item.size_pos
    have later := items_inside rest (n + item.size)
    refine List.forall_mem_cons.mpr ⟨by rw [Items.size]; omega, fun i member => ?_⟩
    have inside := later i member
    rw [Items.size]
    omega

theorem entries_inside (entries : Json.Entries) (n : Nat) (stand : entries.Stand node n) :
    (entries.ids n).length ≤ entries.size ∧ ∀ e ∈ entries.ids n,
      e.1 < n + entries.size ∧ e.2 < n + entries.size ∧ ∃ key, node e.1 = stringNode key := by
  cases entries with
  | nil => exact ⟨Nat.le_refl _, fun e member => absurd member List.not_mem_nil⟩
  | cons _ key _ _ item _ rest =>
    have some := item.size_pos
    obtain ⟨few, later⟩ := entries_inside rest (n + 1 + item.size) stand.2.2
    rw [Entries.size, Entries.ids, List.length_cons, List.forall_mem_cons]
    refine ⟨by omega, ⟨by omega, by omega, key, stand.1⟩, fun e member => ?_⟩
    obtain ⟨first, second, quoted⟩ := later e member
    exact ⟨by omega, by omega, quoted⟩

theorem leafNode_resolved (cs : List Char) (plain : Bool) : (leafNode cs plain).resolved = plain := by
  simp [leafNode, Node.ofScalar]

namespace Part

theorem untagged (part : Part node limit p x) : x.tag = none := by
  cases part with
  | key => rfl
  | value json stands =>
    cases json with
    | null | bool | number | string => rw [stands]; rfl
    | array | object => rw [stands.1]

theorem items (part : Part node limit p x) {ids : List Nat} (held : x.content = .sequence ids) : ∀ i ∈ ids, i < limit := by
  cases part with
  | key => cases held
  | value json stands room =>
    cases json with
    | null | bool | number | string => rw [stands] at held; cases held
    | object => rw [stands.1] at held; cases held
    | array items =>
      rw [stands.1] at held
      cases held
      intro i member
      have inside := items_inside items _ i member
      rw [size] at room
      omega

theorem entries (part : Part node limit p x) {ids : List (Nat × Nat)} (held : x.content = .mapping ids) :
    ids.length ≤ limit ∧ ∀ e ∈ ids, e.1 < limit ∧ e.2 < limit ∧
      ∃ text, (node e.1).content = .scalar text ∧ (node e.1).resolved = false := by
  cases part with
  | key => cases held
  | value json stands room =>
    cases json with
    | null | bool | number | string => rw [stands] at held; cases held
    | array => rw [stands.1] at held; cases held
    | object entries =>
      rw [stands.1] at held
      cases held
      obtain ⟨few, inside⟩ := entries_inside entries _ stands.2
      rw [size] at room
      refine ⟨by omega, fun e member => ?_⟩
      obtain ⟨first, second, key, quoted⟩ := inside e member
      exact ⟨by omega, by omega, _, by rw [quoted]; rfl, by rw [quoted]; rfl⟩

/-- What is legible can be read. -/
theorem reads (part : Part node limit p x) (holds : p) (held : x.content = .scalar text) :
    ∃ y, readScalar (if x.resolved then Schema.model.tagOf text.toList else "str") text.toList = .ok y := by
  have word {cs : List Char} {y : Scalar} (same : x = leafNode cs true)
      (read : readScalar (Schema.model.tagOf cs) cs = .ok y) :
      ∃ y, readScalar (if x.resolved then Schema.model.tagOf text.toList else "str") text.toList = .ok y := by
    subst same
    cases held
    rw [leafNode_resolved, if_pos rfl, String.toList_ofList]
    exact ⟨y, read⟩
  have quoted {ps : List Piece} (same : x = stringNode ps) :
      ∃ y, readScalar (if x.resolved then Schema.model.tagOf text.toList else "str") text.toList = .ok y := by
    rw [same, stringNode, leafNode_resolved]
    exact ⟨_, rfl⟩
  cases part with
  | key => exact quoted rfl
  | value json stands room legible =>
    cases json with
    | null => exact word stands readScalar_null
    | bool b => exact word stands (readScalar_bool b)
    | number n => exact word stands (readScalar_regular (legible holds))
    | string => exact quoted stands
    | array | object => rw [stands.1] at held; cases held

end Part

/-! ### The values of parts -/

/-- The builder of the value of a text. -/
def builder (json : Json) (s : Store) : Builder where
  schema := Schema.model
  nodes := (json.nodes 0).toArray
  store := s
  values := Array.replicate json.size none

theorem builder_stands (json : Json) (s : Store) : json.Stands (json.builder s).node 0 :=
  nodes_stand json 0 fun k x found => by
    rw [Nat.zero_add, Builder.node, builder, List.getElem?_toArray, found]
    rfl

theorem builder_node (json : Json) (s : Store) (k : Nat) : (json.builder s).node k = default ∨
    Part (json.builder s).node json.size json.Legible ((json.builder s).node k) := by
  have parts := nodes_parts (p := json.Legible) json 0 (json.builder_stands s) (Nat.le_of_eq (Nat.zero_add _)) fun holds => holds
  have node : (json.builder s).node k = (json.nodes 0)[k]?.getD default := by
    rw [Builder.node, builder, List.getElem?_toArray]
  cases found : (json.nodes 0)[k]? with
  | none => exact .inl (by rw [node, found]; rfl)
  | some x =>
    rw [found] at node
    exact .inr (node ▸ parts x (List.mem_of_getElem? found))

theorem builder_size (json : Json) (s : Store) : (json.builder s).values.size = json.size ∧
    (json.builder s).nodes.size = json.size :=
  ⟨Array.size_replicate, nodes_length json 0⟩

theorem builder_simple (json : Json) (s : Store) : (json.builder s).Simple := by
  have absent : (default : Node).content = .scalar "" := rfl
  obtain ⟨values, nodes⟩ := json.builder_size s
  refine ⟨by simp only [builder], fun k => ?_, fun k ids held => ?_, fun k ids held => ?_⟩
  · obtain none | part := json.builder_node s k
    · exact congrArg Node.tag none
    · exact part.untagged
  · obtain none | part := json.builder_node s k
    · rw [none, absent] at held; cases held
    · rw [values]; exact part.items held
  · obtain none | part := json.builder_node s k
    · rw [none, absent] at held; cases held
    · rw [values, nodes]; exact part.entries held

theorem builder_readable (json : Json) (s : Store) (legible : json.Legible) (fault : Fault) :
    ¬ (json.builder s).Unreadable fault := by
  rintro ⟨k, text, held, failed⟩
  obtain none | part := json.builder_node s k
  · have plain : (default : Node).resolved = false := rfl
    have tag : (json.builder s).textTag k text = "str" := by
      rw [Builder.textTag, none, plain, if_neg Bool.false_ne_true]
    rw [Builder.reading, tag] at failed
    cases failed
  · obtain ⟨y, read⟩ := part.reads legible held
    rw [Builder.reading, Builder.textTag, (json.builder_simple s).schema, read] at failed
    cases failed

theorem builder_empty (json : Json) (s : Store) (k : Nat) : (json.builder s).found? k = none := by
  rw [Builder.found?, builder, Array.getElem?_replicate]
  split <;> rfl

theorem builder_sound (json : Json) (s : Store) : (json.builder s).Sound [] := by
  have none {k : Nat} {v : Value} : (json.builder s).found? k ≠ some v := by
    rw [builder_empty]
    exact Option.some_ne_none v |>.symm
  exact ⟨fun _ _ _ _ found => absurd found none, fun _ _ _ found => absurd found none,
    fun _ _ _ found => absurd found none, fun _ member => absurd member List.not_mem_nil, fun _ _ found => absurd found none⟩

theorem builder_pending (json : Json) (s : Store) : (json.builder s).pending = json.size := by
  have all : (Array.replicate json.size (none : Option Value)).countP Option.isNone = json.size :=
    Array.countP_replicate.trans (if_pos rfl)
  rw [Builder.pending, builder, all]
  rfl

/-! ### What the values mean -/

section Meaning

variable {b : Builder} {n : Nat} {v : Value} {cs : List Char} {ps : List Piece}

theorem word_found (model : b.schema = Schema.model) (sound : b.Sound []) (stands : b.node n = leafNode cs true)
    (found : b.found? n = some v) : ∃ x, readScalar (Schema.model.tagOf cs) cs = .ok x ∧ IsScalar x v := by
  have read := sound.text n (String.ofList cs) v (congrArg Node.content stands) found
  rwa [Builder.reading, Builder.textTag, stands, leafNode_resolved, if_pos rfl, model, String.toList_ofList] at read

theorem string_found (sound : b.Sound []) (stands : b.node n = stringNode ps) (found : b.found? n = some v) :
    v = .text (Text.ofPoints ((folded ps).getD [])) :=
  sound.key (congrArg Node.content stands) (by rw [stands, stringNode, leafNode_resolved]) found

/-- What a quoted text is taken for is what it stands for if it is read as it is. -/
theorem string_means (taken : (folded ps).isSome) (allowed : ∀ c ∈ written ps, isAllowed c = true) :
    Value.text (Text.ofPoints ((folded ps).getD [])) = .text (textOf ps) ↔ Intact ps := by
  obtain ⟨ns, same⟩ := Option.isSome_iff_exists.mp taken
  rw [← folded_iff allowed, same, Option.getD_some, textOf, Option.some.injEq]
  constructor
  · exact fun same' => Text.ofPoints_injective (folded_lt same) (unescaped_lt ps) (by simpa using same')
  · rintro rfl
    rfl

theorem number_untold (x : Numeral) (text : String) : ¬ IsScalar x.value (.text text) := by
  rintro ⟨s, same⟩
  unfold Numeral.value at same
  split at same
  · cases same
  · unfold Store.own at same
    dsimp only at same
    split at same <;> cases same

theorem number_means {x : Numeral} {y : Scalar} (read : readScalar (Schema.model.tagOf x.chars) x.chars = .ok y)
    (held : IsScalar y v) : IsScalar x.value v ↔ x.Regular := by
  constructor
  · intro means
    by_contra irregular
    rw [readScalar_irregular irregular] at read
    split at read
    · cases read
    · cases read
      obtain ⟨s, rfl⟩ := held
      exact number_untold x _ means
  · intro regular
    rw [readScalar_regular regular] at read
    cases read
    exact held

theorem ids_length (entries : Json.Entries) (n : Nat) : (entries.ids n).length = entries.keys.length := by
  cases entries with
  | nil => rfl
  | cons _ _ _ _ item _ rest => exact congrArg Nat.succ (ids_length rest (n + 1 + item.size))

theorem mean_keys {s : Store} (entries : Json.Entries) {found : List (Value × Value)} (mean : entries.Mean s found) :
    found.map Prod.fst = entries.keys.map Value.text := by
  cases entries with
  | nil => rw [mean]; rfl
  | cons _ key _ _ item _ rest =>
    obtain ⟨v, more, rfl, -, later⟩ := mean
    exact congrArg (Value.text (textOf key) :: ·) (mean_keys rest later)

/-- A mapping that is made of entries in order means them if and only if these do. -/
theorem mean_putAll {s : Store} {entries : Json.Entries} (distinct : entries.keys.Nodup) {kvs : List (Value × Value)}
    (length : kvs.length = entries.keys.length) : entries.Mean s (Entries.putAll [] kvs) ↔ entries.Mean s kvs := by
  have same (all : Entries.putAll [] kvs = kvs) : entries.Mean s (Entries.putAll [] kvs) ↔ entries.Mean s kvs := by rw [all]
  constructor
  · intro mean
    have keys := congrArg List.length (mean_keys entries mean)
    rw [List.length_map, List.length_map] at keys
    exact (same (Entries.putAll_longest (by rw [keys, length, List.length_nil, Nat.zero_add]))).mp mean
  · intro mean
    have apart : (kvs.map Prod.fst).Pairwise fun key other => key.sameKey other = false := by
      rw [mean_keys entries mean]
      exact List.pairwise_map.mpr (distinct.imp fun differs => Bool.eq_false_iff.mpr (mt Value.sameKey_texts.mp differs))
    exact (same (Entries.putAll_apart (List.pairwise_map.mp apart))).mpr mean

mutual

/-- The value of a text that has been read means the text if and only if the text is legible. -/
theorem value_means (model : b.schema = Schema.model) (sound : b.Sound []) (full : b.empty = []) (json : Json) {n : Nat}
    {v : Value} (stands : json.Stands b.node n) (clean : json.Clean) (tidy : json.Tidy) (distinct : json.Distinct)
    (allowed : ∀ c ∈ json.chars, isAllowed c = true) (found : b.found? n = some v) :
    json.Means b.store v ↔ json.Legible := by
  -- A collection has a container of its own, and since none is left to be filled, that holds the values of the parts.
  have filled {content : Content} (held : (b.node n).content = content) (untold : ∀ text, content ≠ .scalar text) :
      ∃ cell, b.store.cell? v = some cell ∧ b.Contains n cell := by
    obtain ⟨place, rfl, -⟩ := sound.place n v (held ▸ untold) found
    exact sound.filled n place found (full ▸ List.not_mem_nil) List.not_mem_nil
  cases json with
  | null =>
    obtain ⟨x, read, s, rfl⟩ := word_found model sound stands found
    cases readScalar_null.symm.trans read
    exact iff_of_true rfl trivial
  | bool truth =>
    obtain ⟨x, read, s, rfl⟩ := word_found model sound stands found
    cases (readScalar_bool truth).symm.trans read
    exact iff_of_true rfl trivial
  | number x =>
    obtain ⟨y, read, held⟩ := word_found model sound stands found
    exact number_means read held
  | string ps =>
    rw [string_found sound stands found]
    exact string_means clean fun c member => allowed c (List.mem_cons_of_mem _ (List.mem_append_left _ member))
  | array items inner =>
    have content := congrArg Node.content stands.1
    obtain ⟨cell, held, contains⟩ := filled content (by simp)
    unfold Builder.Contains at contains
    rw [content] at contains
    obtain ⟨vs, rfl, parts⟩ := contains
    have means := items_mean model sound full items stands.2 clean.1 tidy distinct 
      (fun c member => allowed c (List.mem_cons_of_mem _ (List.mem_append_left _ member))) parts
    simp only [Means, held, Option.some.injEq, Cell.list.injEq, exists_eq_left', means, Legible, clean.2, not_false_eq_true,
      and_true]
  | object entries inner =>
    have content := congrArg Node.content stands.1
    obtain ⟨cell, held, contains⟩ := filled content (by simp)
    unfold Builder.Contains at contains
    rw [content] at contains
    obtain ⟨kvs, rfl, parts⟩ := contains
    have means := entries_mean model sound full entries stands.2 clean.1 tidy distinct.2 
      (fun c member => allowed c (List.mem_cons_of_mem _ (List.mem_append_left _ member))) parts
    have length := parts.length_eq.symm.trans (ids_length entries _)
    simp only [Means, held, Option.some.injEq, Cell.map.injEq, exists_eq_left', mean_putAll distinct.1 length, means, Legible,
      clean.2, not_false_eq_true, and_true]

theorem items_mean (model : b.schema = Schema.model) (sound : b.Sound []) (full : b.empty = []) (items : Items) {n : Nat}
    {vs : List Value} {first : Bool} (stand : items.Stand b.node n) (clean : items.Clean) (tidy : items.Tidy)
    (distinct : items.Distinct) (allowed : ∀ c ∈ items.chars first, isAllowed c = true)
    (found : List.Forall₂ (fun i v => b.found? i = some v) (items.ids n) vs) : items.Mean b.store vs ↔ items.Legible := by
  cases items with
  | nil =>
    cases found
    exact iff_of_true rfl trivial
  | cons before item after rest =>
    rw [Items.ids] at found
    cases found with
    | cons here there =>
      have firsts := value_means model sound full item stand.1 clean.2.1 tidy.1 distinct.1
        (fun c member => allowed c (by simp [Items.chars, member])) here
      have others := items_mean model sound full rest stand.2 clean.2.2.2 tidy.2 distinct.2
        (fun c (member : c ∈ rest.chars false) => allowed c (by simp [Items.chars, member])) there
      constructor
      · rintro ⟨v, more, same, one, all⟩
        cases same
        exact ⟨by simp [clean.1, clean.2.2.1], firsts.mp one, others.mp all⟩
      · rintro ⟨-, one, all⟩
        exact ⟨_, _, rfl, firsts.mpr one, others.mpr all⟩

theorem entries_mean (model : b.schema = Schema.model) (sound : b.Sound []) (full : b.empty = []) (entries : Json.Entries)
    {n : Nat} {kvs : List (Value × Value)} {first : Bool} (stand : entries.Stand b.node n) (clean : entries.Clean)
    (tidy : entries.Tidy) (distinct : entries.Distinct) (allowed : ∀ c ∈ entries.chars first, isAllowed c = true)
    (found : List.Forall₂ (fun e kv => b.found? e.1 = some kv.1 ∧ b.found? e.2 = some kv.2) (entries.ids n) kvs) :
    entries.Mean b.store kvs ↔ entries.Legible := by
  cases entries with
  | nil =>
    cases found
    exact iff_of_true rfl trivial
  | cons before key middle beyond item after rest =>
    rw [Entries.ids] at found
    cases found with
    | @cons _ kv _ kvs here there =>
      obtain ⟨k, v⟩ := kv
      obtain ⟨apart, taken, tabless, tabless', fine, tabless'', later⟩ := clean
      obtain rfl := string_found sound stand.1 here.1
      have named := string_means taken fun c member => allowed c (by simp [Entries.chars, quoted, member])
      have firsts := value_means model sound full item stand.2.1 fine tidy.2.1 distinct.1
        (fun c member => allowed c (by simp [Entries.chars, member])) here.2
      have others := entries_mean model sound full rest stand.2.2 later tidy.2.2 distinct.2
        (fun c (member : c ∈ rest.chars false) => allowed c (by simp [Entries.chars, member])) there
      constructor
      · rintro ⟨v, more, same, one, all⟩
        rw [List.cons.injEq, Prod.mk.injEq] at same
        obtain ⟨⟨key, rfl⟩, rfl⟩ := same
        exact ⟨by simp [apart, tabless, tabless', tabless''], named.mp key, tidy.1, firsts.mp one, others.mp all⟩
      · rintro ⟨-, intact, -, one, all⟩
        exact ⟨v, kvs, by rw [named.mpr intact], firsts.mpr one, others.mpr all⟩

end

end Meaning

/-! ### What is legible -/

theorem blank_allowed (bs : List Blank) : ∀ c ∈ blank bs, isAllowed c = true := by
  intro c member
  obtain ⟨b, -, rfl⟩ := List.mem_map.mp member
  cases b <;> decide

theorem comma_allowed (first : Bool) : ∀ c ∈ comma first, isAllowed c = true := by
  cases first <;> simp [comma, isAllowed]

theorem number_allowed (n : Numeral) : ∀ c ∈ n.chars, isAllowed c = true := by
  have all : ∀ c ∈ figures, isAllowed c = true := List.all_iff_forall_prop.mp (by decide +kernel)
  exact fun c member => all c (n.figures c member)

theorem Intact.taken {ps : List Piece} (intact : Intact ps) : (folded ps).isSome := by
  rw [(folded_iff intact.allowed).mpr intact]
  rfl

theorem Intact.quoted {ps : List Piece} (intact : Intact ps) : ∀ c ∈ quoted ps, isAllowed c = true :=
  List.forall_mem_cons.mpr ⟨by decide, List.forall_mem_append.mpr ⟨intact.allowed, by simp [isAllowed]⟩⟩

mutual

/-- A legible text has tokens and nodes, and only characters that documents may hold. -/
theorem legible_taken (json : Json) (legible : json.Legible) :
    json.Clean ∧ json.Tidy ∧ ∀ c ∈ json.chars, isAllowed c = true := by
  cases json with
  | null => exact ⟨trivial, trivial, List.all_iff_forall_prop.mp (by decide)⟩
  | bool b => cases b <;> exact ⟨trivial, trivial, List.all_iff_forall_prop.mp (by decide)⟩
  | number n => exact ⟨trivial, trivial, number_allowed n⟩
  | string ps => exact ⟨Intact.taken legible, trivial, Intact.quoted legible⟩
  | array items inner =>
    obtain ⟨clean, tidy, allowed⟩ := items_taken items true legible.1
    refine ⟨⟨clean, legible.2⟩, tidy, ?_⟩
    simp only [Json.chars, List.forall_mem_cons, List.forall_mem_append]
    exact ⟨by decide, allowed, blank_allowed inner, by decide, by simp⟩
  | object entries inner =>
    obtain ⟨clean, tidy, allowed⟩ := entries_taken entries true legible.1
    refine ⟨⟨clean, legible.2⟩, tidy, ?_⟩
    simp only [Json.chars, List.forall_mem_cons, List.forall_mem_append]
    exact ⟨by decide, allowed, blank_allowed inner, by decide, by simp⟩

theorem items_taken (items : Items) (first : Bool) (legible : items.Legible) :
    items.Clean ∧ items.Tidy ∧ ∀ c ∈ items.chars first, isAllowed c = true := by
  cases items with
  | nil => exact ⟨trivial, trivial, by simp [Items.chars]⟩
  | cons before item after rest =>
    obtain ⟨tabless, here, there⟩ := legible
    rw [List.mem_append, not_or] at tabless
    obtain ⟨clean, tidy, allowed⟩ := legible_taken item here
    obtain ⟨cleans, tidies, alloweds⟩ := items_taken rest false there
    refine ⟨⟨tabless.1, clean, tabless.2, cleans⟩, ⟨tidy, tidies⟩, ?_⟩
    simp only [Items.chars, List.forall_mem_append]
    exact ⟨comma_allowed first, blank_allowed before, allowed, blank_allowed after, alloweds⟩

theorem entries_taken (entries : Json.Entries) (first : Bool) (legible : entries.Legible) :
    entries.Clean ∧ entries.Tidy ∧ ∀ c ∈ entries.chars first, isAllowed c = true := by
  cases entries with
  | nil => exact ⟨trivial, trivial, by simp [Entries.chars]⟩
  | cons before key middle beyond item after rest =>
    obtain ⟨tabless, intact, close, here, there⟩ := legible
    simp only [List.mem_append, not_or] at tabless
    obtain ⟨⟨⟨apart, tabless⟩, tabless'⟩, tabless''⟩ := tabless
    obtain ⟨clean, tidy, allowed⟩ := legible_taken item here
    obtain ⟨cleans, tidies, alloweds⟩ := entries_taken rest false there
    refine ⟨⟨apart, intact.taken, tabless, tabless', clean, tabless'', cleans⟩, ⟨close, tidy, tidies⟩, ?_⟩
    simp only [Entries.chars, List.forall_mem_append, List.forall_mem_cons]
    exact ⟨comma_allowed first, blank_allowed before, intact.quoted, blank_allowed middle, by decide, blank_allowed beyond,
      allowed, blank_allowed after, alloweds⟩

end

/-! ### Whole texts -/

theorem composed_ended {bytes : List UInt8} {r : Composer × Option Nat} (found : composed bytes = .ok r) :
    .streamEnd ∈ (Document.tokens (Pages.ofBytes bytes)).1 :=
  (Composer.document_closes _ _).ok found

/-- The nodes of a text in a file are those of its value. There are none if it has characters that no document may hold,
or if its tokens or its keys are not taken for such. -/
theorem sheet_composes (sheet : Sheet) : Settles (composed (Text.encoding sheet.chars))
    (sheet.chars.all isAllowed = true ∧ sheet.Clean ∧ sheet.value.Tidy)
    fun r => r.1.nodes.toList = sheet.value.nodes 0 ∧ r.2 = some 0 := by
  have refused (absent : .streamEnd ∉ (Document.tokens (Pages.ofBytes (Text.encoding sheet.chars))).1) :
      ∃ fault, composed (Text.encoding sheet.chars) = .error fault := by
    cases found : composed (Text.encoding sheet.chars) with
    | ok r => exact absurd (composed_ended found) absent
    | error fault => exact ⟨fault, rfl⟩
  obtain ⟨pages, beyond⟩ := Pages.ofBytes_pages sheet.chars
  obtain ⟨known, unknown⟩ := tokens_sheet sheet
  by_cases allowed : sheet.chars.all isAllowed = true
  · by_cases clean : sheet.Clean
    · have enough : sheet.value.tokens.length ≤ 4 * (sheet.value.tokens ++ [Token.streamEnd]).length + 8 := by
        rw [List.length_append]
        omega
      rw [composed, pages allowed, known clean]
      exact (Composer.document_composes sheet.value enough).mono (by simp [allowed, clean]) fun _ good => good
    · have absent := refused (by rw [pages allowed]; exact unknown clean)
      exact ⟨fun holds => absurd holds.2.1 clean, fun _ => absent⟩
  · have absent := refused fun ended => beyond (Bool.eq_false_iff.mpr allowed) (tokens_ended ended)
    exact ⟨fun holds => absurd holds.1 allowed, fun _ => absent⟩

/-- The nodes of a text have values that mean the text if and only if it is legible. If it is, they have values. -/
theorem model_made (json : Json) {c : Composer} (nodes : c.nodes.toList = json.nodes 0) (s : Store) (clean : json.Clean)
    (tidy : json.Tidy) (distinct : json.Distinct) (allowed : ∀ c ∈ json.chars, isAllowed c = true) :
    Yields (valueOf Schema.model s c (some 0)) (fun r => json.Means r.1 r.2 ↔ json.Legible) (fun _ => ¬ json.Legible) := by
  have same : c.nodes = (json.nodes 0).toArray := by rw [← nodes, Array.toArray_toList]
  have simple := json.builder_simple s
  obtain ⟨values, count⟩ := json.builder_size s
  have root := Builder.value_furthers simple (values ▸ json.size_pos)
  unfold valueOf
  rw [same, List.size_toArray, nodes_length]
  refine (root.mono (fun _ good => good) fun fault unread legible => json.builder_readable s legible fault unread).bind
    fun r there => ?_
  obtain ⟨b, v⟩ := r
  obtain ⟨furthers, held⟩ := there
  have enough : b.pending ≤ b.nodes.size + 1 := by
    have fewer : b.pending ≤ json.size := Nat.le_trans furthers.pending (Nat.le_of_eq (json.builder_pending s))
    have same : b.nodes.size = json.size := (congrArg Array.size furthers.nodes).trans count
    omega
  have fills := Builder.fillAll_finishes (furthers.simple simple) (furthers.sound [] (json.builder_sound s)) enough
  refine (fills.mono (fun _ good => good) fun fault unread legible =>
    json.builder_readable s legible fault (unread.before furthers)).bind fun last finishes => .done ?_
  have node : last.node = (json.builder s).node := funext fun k => by
    rw [Builder.node, finishes.nodes, furthers.nodes, Builder.node]
  have stands : json.Stands last.node 0 := by
    rw [node]
    exact json.builder_stands s
  have model : last.schema = Schema.model := finishes.schema.trans (furthers.simple simple).schema
  exact value_means model finishes.sound finishes.empty json stands clean tidy distinct allowed (finishes.found 0 v held)

/-- A text in a file is read as what it means if and only if it is legible. -/
theorem read_sheet (s : Store) (sheet : Sheet) (distinct : sheet.value.Distinct) :
    (∃ s' v, Document.read Schema.model s (Text.encoding sheet.chars) = .ok (s', v) ∧ sheet.value.Means s' v) ↔
      sheet.Legible := by
  have composes := sheet_composes sheet
  rw [read_composed]
  constructor
  · rintro ⟨s', v, read, means⟩
    by_cases taken : sheet.chars.all isAllowed = true ∧ sheet.Clean ∧ sheet.value.Tidy
    · obtain ⟨⟨c, root⟩, found, nodes, rfl⟩ := composes.ok taken
      rw [found] at read
      obtain ⟨allowed, ⟨before, clean, after⟩, tidy⟩ := taken
      have inside : ∀ c ∈ sheet.value.chars, isAllowed c = true := fun c member =>
        List.all_eq_true.mp allowed c (List.mem_append_right _ (List.mem_append_left _ member))
      have made := model_made sheet.value nodes s clean tidy distinct inside
      exact ⟨by simp [before, after], (made.ok read).mp means⟩
    · obtain ⟨fault, failed⟩ := composes.error taken
      rw [failed] at read
      cases read
  · rintro ⟨tabless, legible⟩
    rw [List.mem_append, not_or] at tabless
    obtain ⟨clean, tidy, allowed⟩ := legible_taken sheet.value legible
    have all : sheet.chars.all isAllowed = true := List.all_eq_true.mpr
      (List.forall_mem_append.mpr ⟨blank_allowed _, List.forall_mem_append.mpr ⟨allowed, blank_allowed _⟩⟩)
    obtain ⟨⟨c, root⟩, found, nodes, rfl⟩ := composes.ok ⟨all, ⟨tabless.1, clean, tabless.2⟩, tidy⟩
    rw [found]
    have made := model_made sheet.value nodes s clean tidy distinct allowed
    cases value : valueOf Schema.model s c (some 0) with
    | ok r => exact ⟨r.1, r.2, value, (made.ok value).mpr legible⟩
    | error fault => exact absurd legible (made.error value)

/-! ### Model files -/

theorem readModel_ok {f : Folder} {s s' : Store} {t : String} {bytes : List UInt8} {v : Value}
    (file : f.status (Path.ofString t) = .ok (.file bytes)) :
    readModel f s (.text t) = .ok (s', v, []) ↔ Document.read Schema.model s bytes = .ok (s', v) := by
  rw [readModel_file file]
  cases Document.read Schema.model s bytes with
  | ok r => simp [Prod.ext_iff]
  | error fault =>
    dsimp only
    split <;> simp

/-- A model file with a text of the format is read as what the text means, and nothing is reported, if and only if the
text is legible. -/
theorem model_sheet_read {f : Folder} {t : String} {sheet : Sheet} (s : Store)
    (file : f.status (Path.ofString t) = .ok (.file (Text.encoding sheet.chars))) (distinct : sheet.value.Distinct) :
    (∃ s' v, readModel f s (.text t) = .ok (s', v, []) ∧ sheet.value.Means s' v) ↔ sheet.Legible := by
  simp only [readModel_ok file]
  exact read_sheet s sheet distinct

/-- A folder with a file that holds a text. -/
def shelf (sheet : Sheet) : Folder where
  items := [(["model.yaml"], .file (Text.encoding sheet.chars))]

theorem shelf_file (sheet : Sheet) :
    (shelf sheet).status (Path.ofString "model.yaml") = .ok (.file (Text.encoding sheet.chars)) :=
  rfl

/-- An object with one entry, the number of a letter. -/
def sole (n : Numeral) : Sheet where
  value := .object (.cons [] [.plain 'a' (by decide)] [] [.space] (.number n) [] .nil) []

theorem sole_distinct (n : Numeral) : (sole n).value.Distinct :=
  ⟨List.nodup_singleton _, trivial, trivial⟩

/-- A number with a point and a signed exponent. -/
def pointed : Numeral where
  whole := .counting ⟨1, by decide⟩ []
  fraction := some { first := ⟨5, by decide⟩ }
  exponent := some { capital := false, sign := some false, power := { first := ⟨3, by decide⟩ } }

theorem pointed_read : (sole pointed).chars = "\x7b\"a\": 2.5e+3\x7d".toList ∧
    (shelf (sole pointed)).status (Path.ofString "model.yaml") = .ok (.file (Text.encoding (sole pointed).chars)) ∧
    (sole pointed).value.Distinct ∧
    ∃ s v, readModel (shelf (sole pointed)) {} (.text "model.yaml") = .ok (s, v, []) ∧ (sole pointed).value.Means s v := by
  have intact : Intact [.plain 'a' (by decide)] := by
    refine (folded_iff (List.all_iff_forall_prop.mp (by decide))).mp ?_
    rw [folded_solid rfl, folded]
    rfl
  have close : Close [.plain 'a' (by decide)] [] :=
    ⟨List.all_iff_forall_prop.mp (by decide), by decide, by decide, by decide⟩
  have legible : (sole pointed).Legible :=
    ⟨by decide, ⟨by decide, intact, close, Option.some_ne_none _, trivial⟩, by decide⟩
  exact ⟨by decide +kernel, shelf_file _, sole_distinct _,
    (model_sheet_read {} (shelf_file _) (sole_distinct _)).mpr legible⟩

/-- A number with an exponent, but without a point. -/
def unpointed : Numeral where
  whole := .counting ⟨0, by decide⟩ []
  exponent := some { capital := false, sign := none, power := { first := ⟨5, by decide⟩ } }

theorem unpointed_misread : (sole unpointed).chars = "\x7b\"a\": 1e5\x7d".toList ∧ (sole unpointed).value.Distinct ∧
    (readModel (shelf (sole unpointed)) {} (.text "model.yaml")).toOption.map (fun r => (r.1.entries? r.2.1).map fun found =>
      found.map fun entry => (entry.1.text?, entry.2.text?)) = some (some [(some "a", some "1e5")]) ∧
    ¬ ∃ s v, readModel (shelf (sole unpointed)) {} (.text "model.yaml") = .ok (s, v, []) ∧ (sole unpointed).value.Means s v := by
  refine ⟨by decide +kernel, sole_distinct _, by decide +kernel, ?_⟩
  simp only [readModel_ok (shelf_file _), read_sheet {} _ (sole_distinct _)]
  exact fun legible => legible.2.1.2.2.2.1

end Json

end Interaction
