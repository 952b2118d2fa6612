import Interaction.Document.Token.Scan
/-!
From tokens to nodes. A node is known by its number, so that an alias is the very
node that it stands for, even inside that node.
-/

namespace Interaction.Document

inductive Content where
  | scalar (text : String)
  | sequence (items : List Nat)
  | mapping (entries : List (Nat × Nat))
  deriving Inhabited

/-- A node. The tag of a plain text is still to be found out where there is none. -/
structure Node where
  tag : Option String
  content : Content
  /-- Whether the tag of a text is found out from the text. -/
  resolved : Bool := false
  deriving Inhabited

/-- The node of a text with the tag that stands before it. The mark for no tag in particular has
the tag found out from the text, as that of a plain text without a tag is. -/
def Node.ofScalar (tag : Option String) (text : String) (plain : Bool) : Node where
  tag := tag.filter (· ≠ "!")
  content := .scalar text
  resolved := (plain && tag.isNone) || tag = some "!"

/-- What is left of the tokens, and the nodes so far. -/
structure Composer where
  tokens : List Token
  fault : Option Fault
  handles : List (String × String) := []
  anchors : List (String × Nat) := []
  nodes : Array Node := #[]
  deriving Inhabited

/-- The beginning of the tags that come with the format. -/
def standardTag : String := "tag:yaml.org,2002:"

namespace Composer

def peek (c : Composer) : Except Fault Token :=
  match c.tokens with
  | t :: _ => .ok t
  | [] => .error (c.fault.getD .badDocument)

def advance (c : Composer) : Composer :=
  { c with tokens := c.tokens.tail }

def add (c : Composer) (n : Node) : Composer × Nat :=
  ({ c with nodes := c.nodes.push n }, c.nodes.size)

def fill (c : Composer) (id : Nat) (content : Content) : Composer :=
  { c with nodes := c.nodes.modify id fun n => { n with content } }

def empty (c : Composer) : Composer × Nat :=
  c.add { tag := none, content := .scalar "", resolved := true }

/-- Gives a node a name. No name is given twice. -/
def name (c : Composer) (anchor : Option String) (id : Nat) : Composer :=
  match anchor with
  | some anchor => { c with anchors := (anchor, id) :: c.anchors }
  | none => c

structure Properties where
  anchor : Option String := none
  tag : Option (Option String × String) := none
  deriving Inhabited

/-- Anchor and tag, in either order. -/
def properties (c : Composer) : Properties × Composer :=
  match c.tokens with
  | .anchor a :: .tag h s :: rest | .tag h s :: .anchor a :: rest =>
    ({ anchor := some a, tag := some (h, s) }, { c with tokens := rest })
  | .anchor a :: rest => ({ anchor := some a }, { c with tokens := rest })
  | .tag h s :: rest => ({ tag := some (h, s) }, { c with tokens := rest })
  | _ => ({}, c)

def wholeTag (c : Composer) : Option (Option String × String) → Except Fault (Option String)
  | none => .ok none
  | some (none, suffix) => .ok (some suffix)
  | some (some handle, suffix) =>
    match List.lookup handle c.handles with
    | some start => .ok (some (start ++ suffix))
    | none => refuse

/-- Which parts of the text a node may begin with. -/
inductive Place where
  | flow
  | block
  /-- In a mapping of a block, where a sequence need not be indented. -/
  | value
  deriving DecidableEq, Inhabited

/-- Whether the next token is one of those that follow an empty node. -/
def ends (c : Composer) (p : Token → Bool) : Except Fault Bool :=
  c.peek.map p

def comma (c : Composer) : Except Fault Composer := do
  if (← c.peek) = .flowEntry then return c.advance else refuse

/-- A text that is not there. Only with an anchor or a tag it counts as a node. -/
def emptyWith (p : Properties) (bare tag : Option String) (c : Composer) :
    Except Fault (Composer × Nat) :=
  if p.anchor.isNone && tag.isNone then refuse
  else
    let (c, id) := c.add { tag := bare, content := .scalar "", resolved := bare.isNone }
    .ok (c.name p.anchor id, id)

/-- A collection, which has its name before what it holds is read. -/
def collection (p : Properties) (bare : Option String) (content : Content) (c : Composer)
    (items : Composer → Nat → Except Fault (Composer × Nat)) :
    Except Fault (Composer × Nat) :=
  let (c, id) := c.add { tag := bare, content }
  items (c.name p.anchor id) id

mutual

/-- A node, which may be an alias. -/
def node (place : Place) (c : Composer) : Nat → Except Fault (Composer × Nat)
  | 0 => refuse
  | fuel + 1 => do
    match ← c.peek with
    | .alias name =>
      match List.lookup name c.anchors with
      | some id => return (c.advance, id)
      | none => refuse
    | _ =>
      let (p, c) := c.properties
      let tag ← c.wholeTag p.tag
      if p.anchor.any fun a => (List.lookup a c.anchors).isSome then refuse
      let bare := tag.filter (· ≠ "!")
      match ← c.peek with
      | .scalar text plain =>
        let (c, id) := c.advance.add (.ofScalar tag text plain)
        return (c.name p.anchor id, id)
      | .flowSequenceStart =>
        collection p bare (.sequence []) c.advance
          (fun c id => flowSequence true [] c id fuel)
      | .flowMappingStart =>
        collection p bare (.mapping []) c.advance
          (fun c id => flowMapping true [] c id fuel)
      | .blockSequenceStart =>
        if place = .flow then refuse
        else
          collection p bare (.sequence []) c.advance
            (fun c id => blockSequence [] c id fuel)
      | .blockMappingStart =>
        if place = .flow then refuse
        else
          collection p bare (.mapping []) c.advance
            (fun c id => blockMapping [] c id fuel)
      | .blockEntry =>
        if place = .value then
          collection p bare (.sequence []) c (fun c id => looseSequence [] c id fuel)
        else emptyWith p bare tag c
      | _ => emptyWith p bare tag c
termination_by structural n => n

/-- The items of a sequence whose dashes are not indented. -/
def looseSequence (items : List Nat) (c : Composer) (id : Nat) :
    Nat → Except Fault (Composer × Nat)
  | 0 => refuse
  | fuel + 1 => do
    match ← c.peek with
    | .blockEntry =>
      let c := c.advance
      let stop ← c.ends fun t => t = .blockEntry || t = .key || t = .value || t = .blockEnd
      let (c, item) ← if stop then pure c.empty else node .block c fuel
      looseSequence (item :: items) c id fuel
    | _ => return (c.fill id (.sequence items.reverse), id)
termination_by structural n => n

def blockSequence (items : List Nat) (c : Composer) (id : Nat) :
    Nat → Except Fault (Composer × Nat)
  | 0 => refuse
  | fuel + 1 => do
    match ← c.peek with
    | .blockEntry =>
      let c := c.advance
      let stop ← c.ends fun t => t = .blockEntry || t = .blockEnd
      let (c, item) ← if stop then pure c.empty else node .block c fuel
      blockSequence (item :: items) c id fuel
    | .blockEnd => return (c.advance.fill id (.sequence items.reverse), id)
    | _ => refuse
termination_by structural n => n

def blockMapping (entries : List (Nat × Nat)) (c : Composer) (id : Nat) :
    Nat → Except Fault (Composer × Nat)
  | 0 => refuse
  | fuel + 1 => do
    match ← c.peek with
    | .blockEnd => return (c.advance.fill id (.mapping entries.reverse), id)
    | .key =>
      let (c, key) ← blockPart .key c fuel
      let (c, value) ← blockPart .value c fuel
      blockMapping ((key, value) :: entries) c id fuel
    | _ => refuse
termination_by structural n => n

/-- What comes after a mark in a block mapping. Without the mark it is empty. -/
def blockPart (mark : Token) (c : Composer) : Nat → Except Fault (Composer × Nat)
  | 0 => refuse
  | fuel + 1 => do
    if (← c.peek) = mark then
      let c := c.advance
      let stop ← c.ends fun t => t = .key || t = .value || t = .blockEnd
      if stop then return c.empty else node .value c fuel
    else return c.empty
termination_by structural n => n

/-- The items of a sequence in brackets. An item may be a mapping of one entry. -/
def flowSequence (first : Bool) (items : List Nat) (c : Composer) (id : Nat) :
    Nat → Except Fault (Composer × Nat)
  | 0 => refuse
  | fuel + 1 => do
    if (← c.peek) = .flowSequenceEnd then
      return (c.advance.fill id (.sequence items.reverse), id)
    let c ← if first then pure c else c.comma
    match ← c.peek with
    | .flowSequenceEnd => return (c.advance.fill id (.sequence items.reverse), id)
    | .key =>
      let (c, entry) := c.add { tag := none, content := .mapping [] }
      let (c, key) ← flowPart .key .flowSequenceEnd c fuel
      let (c, value) ← flowPart .value .flowSequenceEnd c fuel
      flowSequence false (entry :: items) (c.fill entry (.mapping [(key, value)])) id fuel
    | _ =>
      let (c, item) ← node .flow c fuel
      flowSequence false (item :: items) c id fuel
termination_by structural n => n

/-- The entries of a mapping in brackets. A key without its mark has no value. -/
def flowMapping (first : Bool) (entries : List (Nat × Nat)) (c : Composer) (id : Nat) :
    Nat → Except Fault (Composer × Nat)
  | 0 => refuse
  | fuel + 1 => do
    if (← c.peek) = .flowMappingEnd then
      return (c.advance.fill id (.mapping entries.reverse), id)
    let c ← if first then pure c else c.comma
    match ← c.peek with
    | .flowMappingEnd => return (c.advance.fill id (.mapping entries.reverse), id)
    | .key =>
      let (c, key) ← flowPart .key .flowMappingEnd c fuel
      let (c, value) ← flowPart .value .flowMappingEnd c fuel
      flowMapping false ((key, value) :: entries) c id fuel
    | _ =>
      let (c, key) ← node .flow c fuel
      let (c, value) := c.empty
      flowMapping false ((key, value) :: entries) c id fuel
termination_by structural n => n

/-- What comes after a mark inside brackets that `closing` closes. Without the mark
it is empty. -/
def flowPart (mark closing : Token) (c : Composer) : Nat → Except Fault (Composer × Nat)
  | 0 => refuse
  | fuel + 1 => do
    if (← c.peek) = mark then
      let c := c.advance
      let stop ← c.ends fun t =>
        t = .flowEntry || t = closing || (mark = .key && t = .value)
      if stop then return c.empty else node .flow c fuel
    else return c.empty
termination_by structural n => n

end

end Composer

end Interaction.Document
