import Interaction.Document.Node
import Interaction.Document.Scalar
import Interaction.Store
/-!
From nodes to values. A collection is there before it is filled, and collections are
filled in the order in which they were met, so a node that contains itself becomes a
container that does.
-/

namespace Interaction.Document

/-- The nodes, the values that some of them have become, and the collections that
are still to be filled. -/
structure Builder where
  schema : Schema
  nodes : Array Node
  store : Store
  values : Array (Option Value)
  empty : List Nat := []
  deriving Inhabited

namespace Builder

def node (b : Builder) (id : Nat) : Node :=
  b.nodes[id]?.getD default

/-- The tag of a node, which a text without one has by the schema. -/
def tag (b : Builder) (id : Nat) : String :=
  let n := b.node id
  match n.tag, n.content with
  | some tag, _ => tag
  | none, .scalar text =>
    standardTag ++ (if n.resolved then b.schema.tagOf text.toList else "str")
  | none, .sequence _ => standardTag ++ "seq"
  | none, .mapping _ => standardTag ++ "map"

def hasTag (b : Builder) (id : Nat) (name : String) : Bool :=
  b.tag id = standardTag ++ name

def entries (b : Builder) (id : Nat) : List (Nat × Nat) :=
  match (b.node id).content with
  | .mapping entries => entries
  | _ => []

def isMapping (b : Builder) (id : Nat) : Bool :=
  match (b.node id).content with
  | .mapping _ => true
  | _ => false

def setNode (b : Builder) (id : Nat) (f : Node → Node) : Builder :=
  { b with nodes := b.nodes.modify id f }

def setEntries (b : Builder) (id : Nat) (entries : List (Nat × Nat)) : Builder :=
  b.setNode id fun n => { n with content := .mapping entries }

/-- The text of a scalar. The one of a mapping stands under its default key. -/
def scalarText (b : Builder) (id : Nat) : Nat → Except Fault (List Char)
  | 0 => refuse
  | fuel + 1 =>
    match (b.node id).content with
    | .scalar text => .ok text.toList
    | .sequence _ => refuse
    | .mapping entries =>
      match entries.find? fun entry => b.hasTag entry.1 "value" with
      | some entry => b.scalarText entry.2 fuel
      | none => refuse

mutual

/-- Replaces the entries that say what is merged into a mapping by what they say,
in front of its own entries. -/
def flatten (b : Builder) (id : Nat) : Nat → Except Fault Builder
  | 0 => refuse
  | fuel + 1 => flattenFrom b id 0 [] fuel
termination_by structural n => n

/-- The same from an entry on, where `merged` has been found already. -/
def flattenFrom (b : Builder) (id index : Nat) (merged : List (Nat × Nat)) :
    Nat → Except Fault Builder
  | 0 => refuse
  | fuel + 1 => do
    match (b.entries id)[index]? with
    | none => return if merged.isEmpty then b else b.setEntries id (merged ++ b.entries id)
    | some (key, value) =>
      if b.hasTag key "merge" then
        let b := b.setEntries id ((b.entries id).eraseIdx index)
        match (b.node value).content with
        | .mapping _ =>
          let b ← flatten b value fuel
          flattenFrom b id index (merged ++ b.entries value) fuel
        | .sequence items =>
          let (b, found) ← flattenEach b items [] fuel
          flattenFrom b id index (merged ++ found) fuel
        | .scalar _ => refuse
      else if b.hasTag key "value" then
        let b := b.setNode key fun n => { n with tag := some (standardTag ++ "str") }
        flattenFrom b id (index + 1) merged fuel
      else flattenFrom b id (index + 1) merged fuel
termination_by structural n => n

/-- The entries of several mappings, those of the last in front. -/
def flattenEach (b : Builder) (items : List Nat) (found : List (Nat × Nat)) :
    Nat → Except Fault (Builder × List (Nat × Nat))
  | 0 => refuse
  | fuel + 1 => do
    match items with
    | [] => return (b, found)
    | item :: rest =>
      if b.isMapping item then
        let b ← flatten b item fuel
        flattenEach b rest (b.entries item ++ found) fuel
      else refuse
termination_by structural n => n

end

/-- Enough steps for any mapping: every merge takes an entry away. -/
def flattenBound (b : Builder) : Nat :=
  (b.nodes.size + 2) * (b.nodes.size + 2) * (b.nodes.size + 2)

def found? (b : Builder) (id : Nat) : Option Value :=
  b.values[id]?.join

def keep (b : Builder) (id : Nat) (v : Value) : Builder :=
  { b with values := b.values.setIfInBounds id (some v) }

/-- A new container for a collection, to be filled later. -/
def reserve (b : Builder) (id : Nat) (cell : Cell) : Builder × Value :=
  let (store, v) := b.store.add cell
  ({ b with store, empty := b.empty ++ [id] }.keep id v, v)

def value (b : Builder) (id : Nat) : Except Fault (Builder × Value) :=
  match b.found? id with
  | some v => .ok (b, v)
  | none =>
    let tag := b.tag id
    if !standardTag.toList.isPrefixOf tag.toList then refuse
    else
      match String.ofList (tag.toList.drop standardTag.length) with
      | "seq" | "omap" | "pairs" => .ok (b.reserve id (.list []))
      | "map" => .ok (b.reserve id (.map []))
      | "set" => .ok (b.reserve id (.set []))
      | name => do
        let text ← b.scalarText id (b.nodes.size + 1)
        if name = "timestamp" && b.isMapping id then
          throw (.wrongKind "expected string or bytes-like object, got 'list'")
        let (store, v) := b.store.own (← readScalar name text)
        return ({ b with store }.keep id v, v)

def valuesOf (b : Builder) : List Nat → Except Fault (Builder × List Value)
  | [] => .ok (b, [])
  | id :: rest => do
    let (b, v) ← b.value id
    let (b, vs) ← b.valuesOf rest
    return (b, v :: vs)

/-- The entries of a mapping. A container cannot be a key. -/
def pairs (b : Builder) (found : Entries) : List (Nat × Nat) → Except Fault (Builder × Entries)
  | [] => .ok (b, found)
  | (key, value) :: rest => do
    let (b, k) ← b.value key
    if (b.store.container? k).isSome then refuse
    let (b, v) ← b.value value
    b.pairs (found.put k v) rest

/-- The entries of a mapping, with what is merged into it. -/
def mappingOf (b : Builder) (id : Nat) : Except Fault (Builder × Entries) := do
  if !b.isMapping id then refuse
  let b ← b.flatten id b.flattenBound
  b.pairs [] (b.entries id)

/-- The items of a list of mappings of one entry each. -/
def tuples (b : Builder) : List Nat → Except Fault (Builder × List Value)
  | [] => .ok (b, [])
  | id :: rest => do
    match (b.node id).content with
    | .mapping [(key, value)] =>
      let (b, k) ← b.value key
      let (b, v) ← b.value value
      let (b, more) ← b.tuples rest
      return (b, .tuple [k, v] :: more)
    | _ => refuse

def cell (b : Builder) (id : Nat) : Except Fault (Builder × Cell) := do
  if b.hasTag id "map" then
    let (b, entries) ← b.mappingOf id
    return (b, .map entries)
  else if b.hasTag id "set" then
    let (b, entries) ← b.mappingOf id
    return (b, .set (entries.map (·.1)))
  else
    match (b.node id).content with
    | .sequence items =>
      let (b, vs) ← if b.hasTag id "seq" then b.valuesOf items else b.tuples items
      return (b, .list vs)
    | _ => refuse

/-- Fills the collections, and those that are met meanwhile. -/
def fillAll (b : Builder) : Nat → Except Fault Builder
  | 0 => .ok b
  | fuel + 1 =>
    match b.empty with
    | [] => .ok b
    | id :: rest => do
      let (b, cell) ← cell { b with empty := rest } id
      match b.found? id with
      | some (.ref place) => fillAll { b with store := b.store.set place cell } fuel
      | _ => fillAll b fuel

end Builder

end Interaction.Document
