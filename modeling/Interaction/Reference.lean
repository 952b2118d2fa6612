import Interaction.Store
import Interaction.Fault
import Interaction.Text.Numeral
import Interaction.Text.Split
/-!
References into the data context. A parameter such as `${user.address.city}`
stands for the value that its path leads to: mappings are entered by key and
sequences by index.
-/

namespace Interaction

namespace Reference

/-- The first segment of a path and those after it, with points between them. -/
def segments (path : List Char) : List Char × List (List Char) :=
  Text.split '.' path

def isPathChar (c : Char) : Bool :=
  c.isAlphanum || c = '_' || c = '.'

def pathAt? : List Char → Option (List Char)
  | '$' :: '{' :: rest =>
    let path := rest.takeWhile isPathChar
    if path.isEmpty then none
    else if (rest.dropWhile isPathChar).head? = some '}' then some path
    else none
  | _ => none

def path? : List Char → Option (List Char)
  | [] => none
  | c :: rest => (pathAt? (c :: rest)).or (path? rest)

end Reference

namespace Store

/-- One step into a value. What cannot be entered, or has nothing there, leads to
null. -/
def step (s : Store) (v : Value) (segment : List Char) : Except Fault Value :=
  match s.entries? v with
  | some entries => .ok ((entries.get? (.text (String.ofList segment))).getD .null)
  | none =>
    match s.items? v with
    | none => .ok .null
    | some items =>
      if !Text.isNumeral segment then .ok .null
      else if Text.maxDigits < segment.length then .error (.longNumeral segment.length)
      else .ok (items[Text.numeralValue segment]?.getD .null)

/-- Follows the segments of a path as long as there is something to enter. -/
def follow (s : Store) (v : Value) : List (List Char) → Except Fault Value
  | [] => .ok v
  | segment :: rest =>
    if v.isNull then .ok v
    else do
      let next ← s.step v segment
      s.follow next rest

/-- The value that a path leads to from the data context. -/
def lookup (s : Store) (context : Value) (path : List Char) : Except Fault Value :=
  let (head, steps) := Reference.segments path
  match s.entries? context with
  | none => .error (.noMember (s.kind context) "get")
  | some entries => s.follow ((entries.get? (.text (String.ofList head))).getD .null) steps

def resolve (s : Store) (context : Value) : Value → Except Fault Value
  | .text t =>
    match Reference.path? t.toList with
    | none => .ok (.text t)
    | some path => s.lookup context path
  | v => .ok v

/-- Each of a list of parameters, or what it refers to. -/
def resolveItems (s : Store) (context : Value) (params : List Value) :
    Except Fault (List Value) :=
  params.mapM (s.resolve context)

/-- Each member of a value, or what it refers to. -/
def resolveMembers (s : Store) (context params : Value) : Except Fault (List Value) :=
  match s.members? params with
  | none => .error (.notIterable (s.kind params))
  | some items => s.resolveItems context items

end Store

end Interaction
