import Interaction.Registry
/-!
Validation of configurations: every call that the execution of a configuration
can lead to is checked before anything is executed.
-/

namespace Interaction.Coordinator

/-- Checks calls one after the other, up to the first fault. -/
def checkEach (check : Value → Except Fault Unit) : List Value → Except Fault Unit
  | [] => .ok ()
  | config :: rest => do
    check config
    checkEach check rest

/-- Checks a call and the calls nested in it: the one that gives its parameters,
those that map them, and the one that maps its result. `depth` bounds how deep the
calls are nested.

How deep the interpreter lets functions call each other is left out throughout, but for
values that are compared (`Store.maxDepth`) and for configurations without an end, which
`depthBound` takes for calls that go too deep. A finite value can be checked, read and
resolved however deep it is. -/
def check (c : Coordinator) (s : Store) : Nat → Value → Except Fault Unit
  | 0, _ => .error .endless
  | depth + 1, config => do
    let _ ← c.target s config
    match s.source (s.field config "parameters") with
    | .derived inner => c.check s depth inner
    | _ => pure ()
    checkEach (c.check s depth) (s.mappedCalls (s.field config "parameterMapping"))
    let result := s.field config "resultMapping"
    if s.isMapping result then c.check s depth result

/-- No chain of configurations without a repetition is longer than the store. -/
def depthBound (s : Store) : Nat :=
  s.cells.size + 1

def checkCall (c : Coordinator) (s : Store) (config : Value) : Except Fault Unit :=
  c.check s (depthBound s) config

def checkState (c : Coordinator) (s : Store) (config : Value) : Except Fault Unit := do
  if !s.isMapping config then throw (.configuration (.badState (s.kind config)))
  match s.source (s.field config "parameters") with
  | .derived inner => c.checkCall s inner
  | _ => pure ()
  checkEach (c.checkCall s) (s.mappedCalls (s.field config "parameterMapping"))

end Interaction.Coordinator
