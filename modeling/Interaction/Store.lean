import Interaction.Datum
import Interaction.Fault
/-!
The store of containers. A place keeps its container for good; what the container
holds may change.
-/

namespace Interaction

inductive Cell where
  | list (items : List Value)
  | map (entries : Entries)
  | set (items : List Value)
  deriving Inhabited

namespace Cell

def kind : Cell → String
  | .list _ => "list"
  | .map _ => "dict"
  | .set _ => "set"

def isEmpty : Cell → Bool
  | .list items => items.isEmpty
  | .map entries => entries.isEmpty
  | .set items => items.isEmpty

end Cell

structure Store where
  cells : Array Cell := #[]
  /-- How many undefined numbers there are. The first is the one that all documents
  share. -/
  marks : Nat := 1
  deriving Inhabited

namespace Store

def cell? (s : Store) : Value → Option Cell
  | .ref place => s.cells[place]?
  | _ => none

def add (s : Store) (cell : Cell) : Store × Value :=
  ({ s with cells := s.cells.push cell }, .ref s.cells.size)

/-- A scalar of its own: an undefined number gets a mark that no other has. -/
def own (s : Store) (x : Scalar) : Store × Value :=
  match x with
  | .float n =>
    if n.isNaN then ({ s with marks := s.marks + 1 }, .scalar (.undefined s.marks))
    else (s, .float n)
  | x => (s, .scalar x)

def set (s : Store) (place : Nat) (cell : Cell) : Store :=
  { s with cells := s.cells.setIfInBounds place cell }

def entries? (s : Store) (v : Value) : Option Entries :=
  match s.cell? v with
  | some (.map entries) => some entries
  | _ => none

def isMapping (s : Store) (v : Value) : Bool :=
  (s.entries? v).isSome

/-- The items of a list, fixed or not. -/
def items? (s : Store) : Value → Option (List Value)
  | .tuple items => some items
  | v =>
    match s.cell? v with
    | some (.list items) => some items
    | _ => none

/-- The value under a key of a mapping, null if there is none. -/
def get (s : Store) (v key : Value) : Value :=
  (((s.entries? v).getD []).get? key).getD .null

/-- The value under the name of a field. -/
def field (s : Store) (v : Value) (name : String) : Value :=
  s.get v (.text name)

def kind (s : Store) : Value → String
  | .scalar x => x.kind
  | .tuple _ => "tuple"
  | v => ((s.cell? v).map Cell.kind).getD "NoneType"

/-- Null, false, zero, empty texts and empty containers do not count as given. -/
def truthy (s : Store) : Value → Bool
  | .scalar x => x.truthy
  | .tuple items => !items.isEmpty
  | v => ((s.cell? v).map fun cell => !cell.isEmpty).getD false

mutual

/-- The kind of the first container in a value. A value with one cannot be a
key. -/
def container? (s : Store) : Value → Option String
  | .scalar _ => none
  | .tuple items => containerAmong? s items
  | .ref place => some (s.kind (.ref place))

/-- The kind of the first container in any of the values. -/
def containerAmong? (s : Store) : List Value → Option String
  | [] => none
  | v :: rest => (container? s v).or (containerAmong? s rest)

end

end Store

mutual

/-- A value with each container replaced by what `contents` gives for its
place. -/
def Value.expand (contents : Nat → Datum) : Value → Datum
  | .scalar s => .scalar s
  | .tuple items => .tuple (expandItems contents items)
  | .ref place => contents place

def Value.expandItems (contents : Nat → Datum) : List Value → List Datum
  | [] => []
  | v :: rest => v.expand contents :: expandItems contents rest

end

namespace Store

/-- What the container at a place holds. `within` are the places that it is met
in. No chain of places without a repetition is longer than the store. -/
def contents (s : Store) : Nat → List Nat → Nat → Datum
  | 0, _, _ => .again false
  | depth + 1, within, place =>
    let inner := s.contents depth (place :: within)
    match s.cells[place]? with
    | none => .null
    | some (.list items) =>
      if within.contains place then .again false else .list (items.map (Value.expand inner))
    | some (.map entries) =>
      if within.contains place then .again true
      else .map (entries.map fun (k, v) => (k.expand inner, v.expand inner))
    | some (.set items) => .set (items.map (Value.expand inner))

def datum (s : Store) (v : Value) : Datum :=
  v.expand (s.contents (s.cells.size + 1) [])

/-- Whether a value inside a container agrees with one inside another: it is the same
one, or equal to it. Sequences of different kinds differ, and the order of the entries
of a mapping does not matter. There is no answer for values that are nested deeper than
`depth`. -/
def agree? (s : Store) : Nat → Value → Value → Option Bool
  | 0, _, _ => none
  | depth + 1, v, w =>
    let items := fun (xs ys : List Value) =>
      if xs.length = ys.length then (xs.zip ys).allM fun (x, y) => s.agree? depth x y
      else some false
    match v, w with
    | .scalar x, .scalar y => some (x.same y)
    | .tuple xs, .tuple ys => items xs ys
    | .ref p, .ref q =>
      if p = q then some true
      else
        match s.cells[p]?, s.cells[q]? with
        | some (.list xs), some (.list ys) => items xs ys
        | some (.map xs), some (.map ys) =>
          if xs.length = ys.length then
            xs.allM fun (key, x) =>
              match ys.get? key with
              | some y => s.agree? depth x y
              | none => some false
          else some false
        | some (.set xs), some (.set ys) =>
          some (xs.length = ys.length && xs.all fun x => ys.any x.sameKey)
        | _, _ => some false
    | _, _ => some false

/-- How deep values that are compared may be nested. -/
def maxDepth : Nat := 1000

/-- Whether a value is the same as another one, or equal to it. -/
def agree (s : Store) (v w : Value) : Except Fault Bool :=
  match s.agree? maxDepth v w with
  | some answer => .ok answer
  | none => .error .endless

/-- Whether a value is equal to another one. An undefined number is not even equal to
itself. -/
def equal (s : Store) (v w : Value) : Except Fault Bool :=
  if v.isUndefined then .ok false else s.agree v w

def isAmong (s : Store) (v : Value) : List Value → Except Fault Bool
  | [] => .ok false
  | w :: rest => do if ← s.agree w v then return true else s.isAmong v rest

/-- The values that a value yields one after the other: the items of a sequence or
set, the keys of a mapping, the code points of a text, the numbers of bytes. -/
def members? (s : Store) : Value → Option (List Value)
  | .text t => some ((Text.points t.toList).map fun n => .text (Text.ofPoints [n]))
  | .bytes bs => some (bs.map fun b => .int b.toNat)
  | .tuple items => some items
  | v =>
    match s.cell? v with
    | some (.list items) => some items
    | some (.map entries) => some (entries.map (·.1))
    | some (.set items) => some items
    | none => none

end Store

end Interaction
