import Interaction.Proofs.Composing
import Interaction.Proofs.Tokenizing

/-! The nodes of a text of the format of interchange. They are numbered in the order in which the text names them, and
there are nodes only if every key is known to be one. -/

namespace Interaction

open Document

namespace Json

/-! ### Nodes -/

/-- The node of a word or string. -/
def leafNode (text : List Char) (plain : Bool) : Node :=
  .ofScalar none (String.ofList text) plain

/-- The node of a string. -/
def stringNode (ps : List Piece) : Node :=
  leafNode (((folded ps).getD []).flatMap Text.spell) false

mutual

/-- How many nodes a value has. -/
def size : Json → Nat
  | .array items _ => items.size + 1
  | .object entries _ => entries.size + 1
  | _ => 1

def Items.size : Items → Nat
  | .nil => 0
  | .cons _ item _ rest => item.size + rest.size

def Entries.size : Entries → Nat
  | .nil => 0
  | .cons _ _ _ _ item _ rest => 1 + item.size + rest.size

end

/-- The numbers of the nodes of items, where the first has a given one. -/
def Items.ids : Items → Nat → List Nat
  | .nil, _ => []
  | .cons _ item _ rest, n => n :: rest.ids (n + item.size)

/-- The numbers of the nodes of keys and values. -/
def Entries.ids : Entries → Nat → List (Nat × Nat)
  | .nil, _ => []
  | .cons _ _ _ _ item _ rest, n => (n, n + 1) :: rest.ids (n + 1 + item.size)

mutual

/-- The nodes of a value, the first of which has a given number. -/
def nodes : Json → Nat → List Node
  | .null, _ => [leafNode "null".toList true]
  | .bool b, _ => [leafNode (if b then "true".toList else "false".toList) true]
  | .number n, _ => [leafNode n.chars true]
  | .string ps, _ => [stringNode ps]
  | .array items _, n => { tag := none, content := .sequence (items.ids (n + 1)) } :: items.nodes (n + 1)
  | .object entries _, n => { tag := none, content := .mapping (entries.ids (n + 1)) } :: entries.nodes (n + 1)

def Items.nodes : Items → Nat → List Node
  | .nil, _ => []
  | .cons _ item _ rest, n => item.nodes n ++ rest.nodes (n + item.size)

def Entries.nodes : Entries → Nat → List Node
  | .nil, _ => []
  | .cons _ key _ _ item _ rest, n => stringNode key :: (item.nodes (n + 1) ++ rest.nodes (n + 1 + item.size))

end

mutual

theorem nodes_length (json : Json) (n : Nat) : (json.nodes n).length = json.size := by
  cases json with
  | array items inner => simp [nodes, size, items_length items]
  | object entries inner => simp [nodes, size, entries_length entries]
  | null | bool | number | string => rfl

theorem items_length (items : Items) (n : Nat) : (items.nodes n).length = items.size := by
  cases items with
  | nil => rfl
  | cons _ item _ rest => simp [Items.nodes, Items.size, nodes_length item, items_length rest]

theorem entries_length (entries : Entries) (n : Nat) : (entries.nodes n).length = entries.size := by
  cases entries with
  | nil => rfl
  | cons _ _ _ _ item _ rest =>
    simp [Entries.nodes, Entries.size, nodes_length item, entries_length rest]
    omega

end

mutual

/-- All keys are known to be keys. -/
def Tidy : Json → Prop
  | .array items _ => items.Tidy
  | .object entries _ => entries.Tidy
  | _ => True

def Items.Tidy : Items → Prop
  | .nil => True
  | .cons _ item _ rest => item.Tidy ∧ rest.Tidy

def Entries.Tidy : Entries → Prop
  | .nil => True
  | .cons _ key middle _ item _ rest => Close key middle ∧ item.Tidy ∧ rest.Tidy

end

/-- A token that a value begins with. -/
def Begins : Token → Prop
  | .scalar _ _ | .flowSequenceStart | .flowMappingStart => True
  | _ => False

theorem tokens_begin (json : Json) : ∃ t rest, json.tokens = t :: rest ∧ Begins t := by
  cases json <;> exact ⟨_, _, rfl, trivial⟩

end Json

namespace Document.Composer

open Json

variable {c d : Composer} {tail : List Token} {id fuel : Nat} {place : Place}

/-! ### Steps -/

theorem peek_of_tokens {t : Token} (tokens : c.tokens = t :: tail) : c.peek = .ok t := by
  unfold peek
  rw [tokens]

/-- Without an anchor or a tag in front, a node is what its first token says. -/
theorem node_scalar {text : String} {plain : Bool} (tokens : c.tokens = .scalar text plain :: tail) :
    node place c (fuel + 1) = .ok (c.advance.add (.ofScalar none text plain)) := by
  unfold node
  simp only [peek, tokens, properties]
  rfl

theorem node_sequence (tokens : c.tokens = .flowSequenceStart :: tail) : node place c (fuel + 1) =
    flowSequence true [] (c.advance.add { tag := none, content := .sequence [] }).1 c.nodes.size fuel := by
  unfold node
  simp only [peek, tokens, properties]
  rfl

theorem node_mapping (tokens : c.tokens = .flowMappingStart :: tail) : node place c (fuel + 1) =
    flowMapping true [] (c.advance.add { tag := none, content := .mapping [] }).1 c.nodes.size fuel := by
  unfold node
  simp only [peek, tokens, properties]
  rfl

/-- The composer behind a comma, if there has to be one. -/
def behind (c : Composer) (first : Bool) : Composer :=
  if first then c else c.advance

/-- The comma in front of an item, if there has to be one. -/
def commaTokens (first : Bool) : List Token :=
  if first then [] else [.flowEntry]

theorem behind_tokens {first : Bool} (tokens : c.tokens = commaTokens first ++ tail) : (c.behind first).tokens = tail := by
  cases first with
  | true => exact tokens
  | false => exact congrArg List.tail tokens

theorem behind_nodes (c : Composer) (first : Bool) : (c.behind first).nodes = c.nodes := by
  cases first <;> rfl

theorem flowSequence_end {first : Bool} {done : List Nat} (tokens : c.tokens = .flowSequenceEnd :: tail) :
    flowSequence first done c id (fuel + 1) = .ok (c.advance.fill id (.sequence done.reverse), id) := by
  unfold flowSequence
  rw [peek_of_tokens tokens]
  rfl

theorem flowSequence_item {first : Bool} {done : List Nat} {t : Token} (begins : Begins t)
    (tokens : c.tokens = commaTokens first ++ t :: tail) : flowSequence first done c id (fuel + 1) =
      node .flow (c.behind first) fuel >>= fun r => flowSequence false (r.2 :: done) r.1 id fuel := by
  have next := peek_of_tokens (behind_tokens tokens)
  cases first with
  | true =>
    have here : c.peek = .ok t := next
    rw [flowSequence, here]
    cases t with
    | scalar | flowSequenceStart | flowMappingStart =>
      simp only [bind, Except.bind, pure, Except.pure, here, reduceCtorEq, if_false, if_true]
      rfl
    | _ => cases begins
  | false =>
    have here : c.peek = .ok .flowEntry := peek_of_tokens tokens
    have there : c.advance.peek = .ok t := next
    rw [flowSequence, here]
    cases t with
    | scalar | flowSequenceStart | flowMappingStart =>
      simp only [comma, here, bind, Except.bind, pure, Except.pure, reduceCtorEq, if_false, if_true]
      simp only [there]
      rfl
    | _ => cases begins

theorem flowMapping_end {first : Bool} {done : List (Nat × Nat)} (tokens : c.tokens = .flowMappingEnd :: tail) :
    flowMapping first done c id (fuel + 1) = .ok (c.advance.fill id (.mapping done.reverse), id) := by
  unfold flowMapping
  rw [peek_of_tokens tokens]
  rfl

theorem flowMapping_key {first : Bool} {done : List (Nat × Nat)} (tokens : c.tokens = commaTokens first ++ .key :: tail) :
    flowMapping first done c id (fuel + 1) = flowPart .key .flowMappingEnd (c.behind first) fuel >>= fun k =>
      flowPart .value .flowMappingEnd k.1 fuel >>= fun v => flowMapping false ((k.2, v.2) :: done) v.1 id fuel := by
  have next := peek_of_tokens (behind_tokens tokens)
  cases first with
  | true =>
    have here : c.peek = .ok .key := next
    rw [flowMapping, here]
    simp only [bind, Except.bind, pure, Except.pure, here, reduceCtorEq, if_false, if_true]
    rfl
  | false =>
    have here : c.peek = .ok .flowEntry := peek_of_tokens tokens
    have there : c.advance.peek = .ok .key := next
    rw [flowMapping, here]
    simp only [comma, here, bind, Except.bind, pure, Except.pure, reduceCtorEq, if_false, if_true]
    simp only [there]
    rfl

theorem flowPart_begins {mark t : Token} (begins : Begins t) (tokens : c.tokens = mark :: t :: tail) :
    flowPart mark .flowMappingEnd c (fuel + 1) = node .flow c.advance fuel := by
  have here : c.peek = .ok mark := peek_of_tokens tokens
  have there : c.advance.peek = .ok t := peek_of_tokens (congrArg List.tail tokens)
  rw [flowPart, here]
  simp only [ends, there, bind, Except.bind, Except.map, if_true]
  cases t with
  | scalar | flowSequenceStart | flowMappingStart =>
    simp only [reduceCtorEq, decide_false, Bool.and_false, Bool.or_false, Bool.false_eq_true, if_false]
  | _ => cases begins

theorem flowMapping_value {done : List (Nat × Nat)} (tokens : c.tokens = .value :: tail) :
    flowMapping false done c id fuel = refuse := by
  cases fuel with
  | zero => rfl
  | succ fuel =>
    have here : c.peek = .ok .value := peek_of_tokens tokens
    rw [flowMapping, here]
    simp only [comma, here, bind, Except.bind, reduceCtorEq, if_false, Bool.false_eq_true]
    rfl

theorem flowMapping_unmarked {first : Bool} {done : List (Nat × Nat)} {text : String} {plain : Bool}
    (tokens : c.tokens = commaTokens first ++ .scalar text plain :: tail) : flowMapping first done c id (fuel + 1) =
      node .flow (c.behind first) fuel >>= fun k => flowMapping false ((k.2, k.1.empty.2) :: done) k.1.empty.1 id fuel := by
  have next := peek_of_tokens (behind_tokens tokens)
  cases first with
  | true =>
    have here : c.peek = .ok (.scalar text plain) := next
    rw [flowMapping, here]
    simp only [bind, Except.bind, pure, Except.pure, here, reduceCtorEq, if_false, if_true]
    rfl
  | false =>
    have here : c.peek = .ok .flowEntry := peek_of_tokens tokens
    have there : c.advance.peek = .ok (.scalar text plain) := next
    rw [flowMapping, here]
    simp only [comma, here, bind, Except.bind, pure, Except.pure, reduceCtorEq, if_false, if_true]
    simp only [there]
    rfl

theorem flowMapping_unknown {first : Bool} {done : List (Nat × Nat)} {text : String} {plain : Bool}
    (tokens : c.tokens = commaTokens first ++ .scalar text plain :: .value :: tail) :
    flowMapping first done c id fuel = refuse := by
  cases fuel with
  | zero => rfl
  | succ fuel =>
    rw [flowMapping_unmarked tokens]
    cases fuel with
    | zero => rfl
    | succ fuel =>
      have after := behind_tokens tokens
      rw [node_scalar after]
      exact flowMapping_value (congrArg List.tail after)

/-! ### Values -/

/-- A composer that has gone on past some tokens and added some nodes. -/
structure Adds (c d : Composer) (new : List Node) (tail : List Token) : Prop where
  tokens : d.tokens = tail
  nodes : d.nodes.toList = c.nodes.toList ++ new

theorem Adds.size {new : List Node} (adds : c.Adds d new tail) : d.nodes.size = c.nodes.size + new.length := by
  rw [← Array.length_toList, adds.nodes, List.length_append, Array.length_toList]

theorem modify_last (before : List Node) (n : Node) (parts : List Node) (content : Content) :
    (before ++ [n] ++ parts).modify before.length (fun n => { n with content }) = before ++ { n with content } :: parts := by
  induction before with
  | nil => rfl
  | cons x before ih => simpa using ih

mutual

theorem value_composes (json : Json) {c : Composer} {place : Place} {tail : List Token} {fuel : Nat}
    (tokens : c.tokens = json.tokens ++ tail) (enough : json.tokens.length ≤ fuel) : Settles (node place c fuel) json.Tidy
      fun r => c.Adds r.1 (json.nodes c.nodes.size) tail ∧ r.2 = c.nodes.size := by
  obtain ⟨t, rest, front, -⟩ := tokens_begin json
  obtain ⟨fuel, rfl⟩ : ∃ n, fuel = n + 1 := ⟨fuel - 1, by rw [front] at enough; simp at enough; omega⟩
  cases json with
  | null | bool b | number n | string ps =>
    rw [node_scalar tokens]
    exact .done ⟨⟨congrArg List.tail tokens, Array.toList_push⟩, rfl⟩
  | array items inner =>
    simp only [Json.tokens, List.cons_append, List.append_assoc, List.nil_append] at tokens
    rw [node_sequence tokens]
    refine (items_compose items (congrArg List.tail tokens) ?_).mono .rfl ?_
    · simp only [Json.tokens, List.length_cons, List.length_append] at enough
      omega
    · rintro r ⟨left, found, root⟩
      refine ⟨⟨left, found.trans ?_⟩, root⟩
      simp only [Composer.add, Composer.advance, Array.toList_push, ← Array.length_toList, modify_last,
        List.reverse_nil, List.nil_append, List.length_append, List.length_singleton, Json.nodes]
  | object entries inner =>
    simp only [Json.tokens, List.cons_append, List.append_assoc, List.nil_append] at tokens
    rw [node_mapping tokens]
    refine (entries_compose entries (congrArg List.tail tokens) ?_).mono .rfl ?_
    · simp only [Json.tokens, List.length_cons, List.length_append] at enough
      omega
    · rintro r ⟨left, found, root⟩
      refine ⟨⟨left, found.trans ?_⟩, root⟩
      simp only [Composer.add, Composer.advance, Array.toList_push, ← Array.length_toList, modify_last,
        List.reverse_nil, List.nil_append, List.length_append, List.length_singleton, Json.nodes]

theorem items_compose (items : Items) {c : Composer} {first : Bool} {done : List Nat} {id : Nat} {tail : List Token}
    {fuel : Nat} (tokens : c.tokens = items.tokens first ++ .flowSequenceEnd :: tail)
    (enough : (items.tokens first).length < fuel) : Settles (flowSequence first done c id fuel) items.Tidy fun r =>
      r.1.tokens = tail ∧ r.1.nodes.toList = (c.nodes.toList ++ items.nodes c.nodes.size).modify id (fun n =>
        { n with content := .sequence (done.reverse ++ items.ids c.nodes.size) }) ∧ r.2 = id := by
  obtain ⟨fuel, rfl⟩ : ∃ n, fuel = n + 1 := ⟨fuel - 1, by omega⟩
  cases items with
  | nil =>
    rw [flowSequence_end tokens]
    refine .done ⟨congrArg List.tail tokens, ?_, rfl⟩
    rw [Items.nodes, Items.ids, List.append_nil, List.append_nil]
    exact Array.toList_modify
  | cons before item after rest =>
    obtain ⟨t, more, front, begins⟩ := tokens_begin item
    simp only [Items.tokens, List.append_assoc, List.length_append] at tokens enough
    have some : 0 < item.tokens.length := by rw [front]; exact Nat.succ_pos _
    rw [flowSequence_item begins (tokens.trans (by rw [front]; rfl))]
    have fewer : item.tokens.length ≤ fuel ∧ (rest.tokens false).length < fuel := by omega
    rw [Items.Tidy]
    refine (value_composes item (behind_tokens tokens) fewer.1).bind fun r there =>
      (items_compose rest there.1.tokens fewer.2).mono .rfl fun r' found => ?_
    obtain ⟨adds, root⟩ := there
    rw [behind_nodes] at adds root
    obtain ⟨left, nodes, same⟩ := found
    refine ⟨left, nodes.trans ?_, same⟩
    have size : r.1.nodes.size = c.nodes.size + item.size := by rw [adds.size, behind_nodes, nodes_length]
    rw [adds.nodes, behind_nodes, size, root, Items.nodes, Items.ids]
    simp

theorem entries_compose (entries : Json.Entries) {c : Composer} {first : Bool} {done : List (Nat × Nat)} {id : Nat}
    {tail : List Token} {fuel : Nat} (tokens : c.tokens = entries.tokens first ++ .flowMappingEnd :: tail)
    (enough : (entries.tokens first).length < fuel) : Settles (flowMapping first done c id fuel) entries.Tidy fun r =>
      r.1.tokens = tail ∧ r.1.nodes.toList = (c.nodes.toList ++ entries.nodes c.nodes.size).modify id (fun n =>
        { n with content := .mapping (done.reverse ++ entries.ids c.nodes.size) }) ∧ r.2 = id := by
  obtain ⟨fuel, rfl⟩ : ∃ n, fuel = n + 1 := ⟨fuel - 1, by omega⟩
  cases entries with
  | nil =>
    rw [flowMapping_end tokens]
    refine .done ⟨congrArg List.tail tokens, ?_, rfl⟩
    rw [Entries.nodes, Entries.ids, List.append_nil, List.append_nil]
    exact Array.toList_modify
  | cons before key middle beyond item after rest =>
    obtain ⟨t, more, front, begins⟩ := tokens_begin item
    have some : 0 < item.tokens.length := by rw [front]; exact Nat.succ_pos _
    rw [Entries.Tidy]
    by_cases near : Close key middle
    · simp only [Entries.tokens, Scanner.keyTokens, if_pos near, List.append_assoc, List.cons_append, List.nil_append,
        List.length_append, List.length_cons] at tokens enough
      obtain ⟨fuel, rfl⟩ : ∃ n, fuel = n + 2 := ⟨fuel - 2, by omega⟩
      have fewer : item.tokens.length ≤ fuel + 1 ∧ (rest.tokens false).length < fuel + 2 := by omega
      have marked := behind_tokens tokens
      let d := ((c.behind first).advance.advance.add (stringNode key)).1
      have named : flowPart .key .flowMappingEnd (c.behind first) (fuel + 2) =
          .ok ((c.behind first).advance.advance.add (stringNode key)) := by
        rw [flowPart_begins (t := Scanner.stringToken key) trivial marked]
        exact node_scalar (congrArg List.tail marked)
      have colon : d.tokens = .value :: (item.tokens ++ (rest.tokens false ++ .flowMappingEnd :: tail)) :=
        congrArg (fun ts => ts.tail.tail) marked
      have valued : flowPart .value .flowMappingEnd d (fuel + 2) = node .flow d.advance (fuel + 1) :=
        flowPart_begins begins (colon.trans (by rw [front]; rfl))
      rw [flowMapping_key tokens, named]
      show Settles (flowPart .value .flowMappingEnd d (fuel + 2) >>= fun v =>
        flowMapping false (((c.behind first).nodes.size, v.2) :: done) v.1 id (fuel + 2)) _ _
      rw [valued]
      refine Settles.mono (p := item.Tidy ∧ rest.Tidy) ((value_composes item (congrArg List.tail colon) fewer.1).bind fun r there =>
        (entries_compose rest there.1.tokens fewer.2).mono .rfl fun r' found => ?_) (by simp [near]) fun _ good => good
      obtain ⟨adds, root⟩ := there
      have keyed : d.advance.nodes.toList = c.nodes.toList ++ [stringNode key] := by
        show ((c.behind first).nodes.push (stringNode key)).toList = _
        rw [behind_nodes, Array.toList_push]
      have after : d.advance.nodes.size = c.nodes.size + 1 := by
        rw [← Array.length_toList, keyed, List.length_append, Array.length_toList]
        rfl
      rw [after] at adds root
      obtain ⟨left, nodes, same⟩ := found
      refine ⟨left, nodes.trans ?_, same⟩
      have size : r.1.nodes.size = c.nodes.size + 1 + item.size := by rw [adds.size, after, nodes_length]
      rw [adds.nodes, keyed, size, root, behind_nodes, Entries.nodes, Entries.ids]
      simp
    · simp only [Entries.tokens, Scanner.keyTokens, if_neg near, List.append_assoc, List.cons_append, List.nil_append] at tokens
      rw [flowMapping_unknown tokens]
      exact ⟨fun holds => absurd holds.1 near, fun _ => ⟨_, rfl⟩⟩

end

theorem document_composes (json : Json) (enough : json.tokens.length ≤ fuel) :
    Settles (document { tokens := json.tokens ++ [.streamEnd], fault := none } fuel) json.Tidy
      fun r => r.1.nodes.toList = json.nodes 0 ∧ r.2 = some 0 := by
  obtain ⟨t, rest, front, begins⟩ := tokens_begin json
  obtain ⟨fuel, rfl⟩ : ∃ n, fuel = n + 1 := ⟨fuel - 1, by rw [front] at enough; simp at enough; omega⟩
  have here : peek { tokens := json.tokens ++ [.streamEnd], fault := none } = .ok t := peek_of_tokens (by rw [front]; rfl)
  have direct : document { tokens := json.tokens ++ [.streamEnd], fault := none } (fuel + 1) =
      node .block { tokens := json.tokens ++ [.streamEnd], fault := none, handles := defaultHandles } (fuel + 1) >>= fun r =>
        r.1.finish (fuel + 1) >>= fun c => pure (c, some r.2) := by
    rw [document, here]
    cases t with
    | scalar | flowSequenceStart | flowMappingStart => rfl
    | _ => cases begins
  rw [direct]
  refine Settles.mono (p := json.Tidy ∧ True) ((value_composes json rfl enough).bind fun r there => ?_) (and_iff_left trivial)
    fun _ good => good
  obtain ⟨adds, root⟩ := there
  have last : r.1.finish (fuel + 1) = .ok r.1 := by
    rw [finish, peek_of_tokens adds.tokens]
    rfl
  rw [last]
  exact .done ⟨adds.nodes, congrArg some root⟩

end Document.Composer

end Interaction
