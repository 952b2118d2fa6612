import Interaction.Document.Build
import Interaction.Document.Loader
/-!
Reading a document: a text with one value in it.
-/

namespace Interaction.Document

namespace Composer

def defaultHandles : List (String × String) :=
  [("!", "!"), ("!!", standardTag)]

def directives (c : Composer) (versioned : Bool) (declared : List (String × String)) :
    Nat → Except Fault Composer
  | 0 => refuse
  | fuel + 1 => do
    match ← c.peek with
    | .version major =>
      if versioned || major ≠ 1 then refuse else directives c.advance true declared fuel
    | .tagHandle handle start =>
      if (List.lookup handle declared).isSome then refuse
      else directives c.advance versioned ((handle, start) :: declared) fuel
    | .otherDirective => directives c.advance versioned declared fuel
    | _ => return { c with handles := declared ++ defaultHandles }

/-- Whether nothing comes between the start of a document and its end. -/
def isBlank : Token → Bool
  | .version _ | .tagHandle _ _ | .otherDirective | .documentStart | .documentEnd
  | .streamEnd => true
  | _ => false

/-- What comes after the document: nothing but marks of its end. -/
def finish (c : Composer) : Nat → Except Fault Composer
  | 0 => refuse
  | fuel + 1 => do
    match ← c.peek with
    | .documentEnd => finish c.advance fuel
    | .streamEnd => return c
    | _ => refuse

/-- The only document, if there is one at all. -/
def document (c : Composer) (fuel : Nat) : Except Fault (Composer × Option Nat) := do
  match ← c.peek with
  | .streamEnd => return (c, none)
  | .version _ | .tagHandle _ _ | .otherDirective | .documentStart =>
    let c ← c.directives false [] fuel
    if (← c.peek) ≠ .documentStart then refuse
    let c := c.advance
    let (c, id) ← if isBlank (← c.peek) then pure c.empty else c.node .block fuel
    return (← c.finish fuel, some id)
  | _ =>
    let (c, id) ← ({ c with handles := defaultHandles } : Composer).node .block fuel
    return (← c.finish fuel, some id)

end Composer

/-- The value of a document, however deep it is nested (see `Coordinator.check`). An
empty one is null. -/
def read (schema : Schema) (store : Store) (bytes : List UInt8) :
    Except Fault (Store × Value) := do
  let (tokens, fault) := tokens (Pages.ofBytes bytes)
  let (c, root) ← ({ tokens, fault } : Composer).document (4 * tokens.length + 8)
  match root with
  | none => return (store, .null)
  | some id =>
    let values := Array.replicate c.nodes.size none
    let b : Builder := { schema, nodes := c.nodes, store, values }
    let (b, v) ← b.value id
    let b ← b.fillAll (b.nodes.size + 1)
    return (b.store, v)

end Interaction.Document
