import Interaction.Service
import Interaction.Situation
import Interaction.Text.Blank
import Interaction.Text.Split
/-!
Components: what settings refer to by the name of a home and the name of a member
of it, with a colon between them.
-/

namespace Interaction

/-- The names of a home and of a member of it. -/
structure Address where
  text : String
  home : String
  member : String
  deriving DecidableEq, Inhabited

namespace Address

/-- The names that a reference gives: what stands before its first colon and what
stands after it, neither of them blank. -/
def parse (reference : String) : Except Fault Address :=
  match Text.cut? ':' reference.toList with
  | none => .error (.component (.badReference reference))
  | some (before, after) =>
    match Text.trimChars before, Text.trimChars after with
    | [], _ | _, [] => .error (.component (.badReference reference))
    | home, member => .ok ⟨reference, String.ofList home, String.ofList member⟩

/-- The names that a value gives. Only texts give names. -/
def ofValue (s : Store) : Value → Except Fault Address
  | .text reference => parse reference
  | .bytes _ => .error (.wrongKind "a bytes-like object is required, not 'str'")
  | v => .error (.noMember (s.kind v) "partition")

end Address

/-- Something that is there, or that has been made. -/
inductive Product where
  | scalar (s : Scalar)
  | texts (items : List String)
  | mapping
  /-- An object that is neither a service nor a factory. -/
  | object (nature : Nature)
  /-- A service, and the methods that it then provides one by one. -/
  | service (service : Service) (methods : List (String × Script))
  | factory (factory : Factory)
  deriving Inhabited

/-- Something that objects can be made from. -/
structure Blueprint where
  name : String
  kind : String := "type"
  /-- What is made without further parameters, or the message of what is raised
  instead. A constructor is taken to raise an ordinary exception then, and not to end
  the process. -/
  made : Except String Product
  deriving Inhabited

inductive Component where
  | ready (product : Product)
  | blueprint (blueprint : Blueprint)
  deriving Inhabited

/-- A component as a session has it. -/
inductive Loaded where
  | value (v : Value)
  | object (nature : Nature)
  /-- The service at a place. -/
  | service (place : Nat)
  | factory (factory : Factory)
  | blueprint (name kind : String)
  deriving Inhabited

structure Home where
  /-- The name, with points between the names of the homes around it and its own. -/
  name : String
  isPackage : Bool := false
  members : List (String × Component) := []
  deriving Inhabited

namespace Home

/-- Why there is no home of a name. -/
def absence (name : String) : String :=
  "No module named " ++ Text.quoted name

def find? (homes : List Home) (name : String) : Option Home :=
  homes.find? fun home => home.name = name

/-- Goes on from a home to the homes inside it. -/
def descend (homes : List Home) (home : Home) : List String → Except String Home
  | [] => .ok home
  | part :: rest =>
    let name := home.name ++ "." ++ part
    if home.isPackage then
      match find? homes name with
      | some inner => descend homes inner rest
      | none => .error (absence name)
    else .error (absence name ++ "; " ++ Text.quoted home.name ++ " is not a package")

/-- The home of a name, or why there is none. -/
def reach (homes : List Home) (name : String) : Except String Home :=
  let (first, rest) := Text.split '.' name.toList
  match find? homes (String.ofList first) with
  | some home => descend homes home (rest.map String.ofList)
  | none => .error (absence (String.ofList first))

/-- The component at an address. A name that begins with a point is none. -/
def component (homes : List Home) (a : Address) : Except Fault Component := do
  if a.home.startsWith "." then
    throw (.wrongKind ("the 'package' argument is required to perform a relative import for " ++
      Text.quoted a.home))
  match reach homes a.home with
  | .error reason => throw (.component (.noModule a.home reason))
  | .ok home =>
    match home.members.lookup a.member with
    | some component => return component
    | none => throw (.component (.noMember a.home a.member))

end Home

end Interaction
