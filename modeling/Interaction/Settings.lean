import Interaction.Model
import Interaction.Service
/-!
Settings of a program in sections, which a configuration document changes where it
says something else.
-/

namespace Interaction

inductive SectionKind where
  | observability
  | interpreter
  | runtime
  deriving DecidableEq, Inhabited

namespace SectionKind

def all : List SectionKind :=
  [observability, interpreter, runtime]

def name : SectionKind → String
  | observability => "observability"
  | interpreter => "interpreter"
  | runtime => "runtime"

def named? (name : String) : Option SectionKind :=
  all.find? fun kind => kind.name = name

def label : SectionKind → String
  | observability => "ObservabilityConfig"
  | interpreter => "InterpreterConfig"
  | runtime => "RuntimeConfig"

/-- The settings that have a value even where none is given, and that value. -/
def fixed : SectionKind → List (String × Value)
  | observability =>
    [("log_dir", .text "logs"), ("log_file", .text "aaim.jsonl"),
     ("console_level", .text "INFO"), ("json_logs", .bool true)]
  | interpreter => [("history_size", .int 100)]
  | runtime =>
    [("model_path", .text "models/three_states.yaml"), ("autostart", .bool true),
     ("situation_factory", .text ""), ("default_service", .text "")]

def names (kind : SectionKind) : List String :=
  kind.fixed.map (·.1) ++ (if kind = runtime then ["services", "context"] else [])

end SectionKind

/-- What settings and their sections have by their kind, whatever it is. -/
def commonNames : List String :=
  ["__annotations__", "__class__", "__dataclass_fields__", "__dataclass_params__", "__delattr__",
   "__dict__", "__dir__", "__doc__", "__eq__", "__format__", "__ge__", "__getattribute__",
   "__getstate__", "__gt__", "__hash__", "__init__", "__init_subclass__", "__le__", "__lt__",
   "__match_args__", "__module__", "__ne__", "__new__", "__reduce__", "__reduce_ex__",
   "__repr__", "__setattr__", "__sizeof__", "__str__", "__subclasshook__", "__weakref__"]

/-- A section: the mapping of the values that its settings have been given. -/
structure Section where
  kind : SectionKind
  own : Value
  deriving Inhabited

namespace Section

def get? (fields : Section) (s : Store) (name : String) : Option Value :=
  (((s.entries? fields.own).getD []).get? (.text name)).or (fields.kind.fixed.lookup name)

/-- Whether there is something under a name, be it a setting or what every section has. -/
def has (fields : Section) (s : Store) (name : String) : Bool :=
  (fields.get? s name).isSome || commonNames.contains name

/-- Gives a name another value. Only names that are there can be given one. -/
def set (fields : Section) (s : Store) (name : String) (v : Value) : Except Fault Store :=
  if fields.has s name then s.putEntry fields.own (.text name) v else .ok s

def settings (fields : Section) (s : Store) : List (String × Option Value) :=
  fields.kind.names.map fun name => (name, fields.get? s name)

end Section

/-- A section, or what a document has put in its place. -/
inductive Part where
  | fields (fields : Section)
  | value (v : Value)
  | absent
  deriving Inhabited

structure Settings where
  observability : Part
  interpreter : Part
  runtime : Part
  debug : Value := .bool false
  /-- What a document has put in the place of something else that the settings have, the
  latest first. -/
  own : List (String × Value) := []
  /-- The same for what all settings of a program have in common. -/
  shared : List (String × Value) := []
  deriving Inhabited

namespace Settings

def part (c : Settings) : SectionKind → Part
  | .observability => c.observability
  | .interpreter => c.interpreter
  | .runtime => c.runtime

def setPart (c : Settings) (part : Part) : SectionKind → Settings
  | .observability => { c with observability := part }
  | .interpreter => { c with interpreter := part }
  | .runtime => { c with runtime := part }

/-- What settings have besides their sections and the switch for debugging. -/
def otherNames : List String :=
  commonNames ++ ["_merge", "ensure_dirs", "load"]

/-- What a document has put in the place of something that all settings have. -/
def replacement? (c : Settings) (name : String) : Option Value :=
  (c.own.lookup name).or (c.shared.lookup name)

/-- Whether the settings have something under a name that is neither a section nor the
switch for debugging. -/
def has (c : Settings) (name : String) : Bool :=
  otherNames.contains name || (c.replacement? name).isSome

/-- A section in which settings have been given values. -/
def newSection (s : Store) (kind : SectionKind) (more : List (String × Value)) :
    Store × Part :=
  let (s, own) := s.add (.map ((kind.fixed ++ more).map fun (name, v) => (.text name, v)))
  (s, .fields { kind, own })

/-- The default settings. Services and data context are new mappings. -/
def create (s : Store) : Store × Settings :=
  let (s, services) := s.add (.map [])
  let (s, context) := s.add (.map [])
  let (s, observability) := newSection s .observability []
  let (s, interpreter) := newSection s .interpreter []
  let (s, runtime) := newSection s .runtime [("services", services), ("context", context)]
  (s, { observability, interpreter, runtime })

def nameOf (s : Store) : Value → Except Fault String
  | .text name => .ok name
  | v => .error (.wrongKind ("attribute name must be string, not '" ++ s.kind v ++ "'"))

/-- Refuses to give something another value under a name that is reserved. -/
def checkReserved (owner name : String) : Except Fault Unit :=
  if name = "__class__" || name = "__dict__" then .error (.wrongKind (name ++ " is reserved"))
  else if name = "__weakref__" then .error (.readOnly name owner)
  else .ok ()

/-- Changes the settings of a section. All of its values can be replaced at once by those
of a mapping. -/
def mergeSection (s : Store) (fields : Section) : Entries → Except Fault (Store × Section)
  | [] => .ok (s, fields)
  | (key, v) :: rest => do
    let name ← nameOf s key
    if name = "__dict__" && s.isMapping v then mergeSection s { fields with own := v } rest
    else
      checkReserved fields.kind.label name
      mergeSection (← fields.set s name v) fields rest

/-- Changes a section, or puts something else in its place. What has been taken away stays
away. -/
def mergePart (s : Store) (part : Part) (v : Value) : Except Fault (Store × Part) :=
  match part, s.entries? v with
  | .absent, _ => .ok (s, .absent)
  | .fields fields, some entries => do
    let (s, fields) ← mergeSection s fields entries
    return (s, .fields fields)
  | _, _ => .ok (s, .value v)

/-- Replaces all values by those of a mapping. -/
def replaceAll (c : Settings) (entries : Entries) : Settings :=
  let part := fun (kind : SectionKind) => match entries.get? (.text kind.name) with
    | some v => Part.value v
    | none => .absent
  { c with
    observability := part .observability
    interpreter := part .interpreter
    runtime := part .runtime
    debug := ((entries.get? (.text "debug")).or (c.shared.lookup "debug")).getD (.bool false)
    own := entries.filterMap fun (key, v) => key.text?.map fun name => (name, v) }

/-- What all settings of a program have in common and no document can change. -/
def fixedNames : List String :=
  ["__base__", "__basicsize__", "__dict__", "__dictoffset__", "__flags__", "__itemsize__",
   "__mro__", "__text_signature__", "__weakrefoffset__"]

/-- What all settings of a program have in common. -/
def sharedNames : List String :=
  otherNames ++ fixedNames ++
    ["debug", "__bases__", "__call__", "__instancecheck__", "__name__", "__or__", "__prepare__",
     "__qualname__", "__ror__", "__subclasscheck__", "__subclasses__", "mro"]

/-- Whether all settings of a program have something in common under a name. -/
def hasShared (c : Settings) (name : String) : Bool :=
  sharedNames.contains name || (c.shared.lookup name).isSome

/-- Refuses to give all settings of a program another value under a name that is reserved. -/
def checkShared (name : String) (v : Value) : Except Fault Unit :=
  if fixedNames.contains name then .error (.readOnly name "type")
  else if name = "__class__" || name = "__bases__" ||
      ((name = "__name__" || name = "__qualname__") && (v.text?).isNone) then
    .error (.wrongKind (name ++ " is reserved"))
  else .ok ()

/-- Changes what all settings of a program have in common. -/
def mergeShared (s : Store) (c : Settings) : Entries → Except Fault Settings
  | [] => .ok c
  | (key, v) :: rest => do
    let name ← nameOf s key
    if c.hasShared name then
      checkShared name v
      mergeShared s { c with shared := (name, v) :: c.shared } rest
    else mergeShared s c rest

/-- Changes what is neither a section nor the switch for debugging. Only what is there can be
changed. -/
def mergeOther (s : Store) (c : Settings) (name : String) (v : Value) : Except Fault Settings :=
  match name, s.entries? v with
  | "__dict__", some entries => .ok (c.replaceAll entries)
  | "__class__", some entries => c.mergeShared s entries
  | name, _ => do
    checkReserved "AAIMConfig" name
    return if c.has name then { c with own := (name, v) :: c.own } else c

def mergeEntry (s : Store) (c : Settings) (name : String) (v : Value) :
    Except Fault (Store × Settings) := do
  match SectionKind.named? name with
  | some kind =>
    let (s, part) ← mergePart s (c.part kind) v
    return (s, c.setPart part kind)
  | none =>
    if name = "debug" then return (s, { c with debug := v })
    else return (s, ← c.mergeOther s name v)

def mergeEntries (s : Store) (c : Settings) : Entries → Except Fault (Store × Settings)
  | [] => .ok (s, c)
  | (key, v) :: rest => do
    let (s, c) ← c.mergeEntry s (← nameOf s key) v
    mergeEntries s c rest

def merge (s : Store) (c : Settings) (document : Value) : Except Fault (Store × Settings) :=
  match s.entries? document with
  | some entries => c.mergeEntries s entries
  | none => .error (.noMember (s.kind document) "items")

/-- Changes settings of a section. All of them have to be there. -/
def overrideSection (s : Store) (fields : Section) : Entries → Except Fault Store
  | [] => .ok s
  | (.text name, v) :: rest => do
    if !fields.kind.names.contains name then
      throw (.wrongKind ("there is no setting " ++ Text.quoted name))
    overrideSection (← fields.set s name v) fields rest
  | (key, _) :: _ => .error (.wrongKind ("keywords must be strings, not " ++ s.kind key))

/-- Changes how the log is written, by settings that have to be there. -/
def observe (s : Store) (c : Settings) (changes : Value) : Except Fault Store :=
  match c.observability, s.entries? changes with
  | .fields fields, some entries => overrideSection s fields entries
  | _, _ => .error (.wrongKind ("a mapping is required, not " ++ s.kind changes))

/-- The settings that a file makes of the default ones. Without a file they stay as
they are. -/
def load (f : Folder) (s : Store) (path : Value) : Except Fault (Store × Settings) := do
  let (s, c) := create s
  let path ← pathOf s path
  match ← FileFault.lift (f.status path) with
  | .missing | .blocked => return (s, c)
  | _ =>
    let bytes ← FileFault.lift (f.read path)
    let (s, document) ← Document.read Document.Schema.config s bytes
    if s.truthy document then c.merge s document else return (s, c)

/-- The value of a setting of a section. -/
def ofPart (s : Store) (part : Part) (name : String) : Except Fault Value :=
  match part with
  | .value v => .error (.noMember (s.kind v) name)
  | .absent => .error (.noMember "AAIMConfig" name)
  | .fields fields =>
    match fields.get? s name with
    | some v => .ok v
    | none => .error (.noMember fields.kind.label name)

def log (c : Settings) (s : Store) (name : String) : Except Fault Value :=
  ofPart s c.observability name

def machine (c : Settings) (s : Store) (name : String) : Except Fault Value :=
  ofPart s c.interpreter name

def runner (c : Settings) (s : Store) (name : String) : Except Fault Value :=
  ofPart s c.runtime name

def ensureDirectories (c : Settings) (s : Store) (f : Folder) : Except Fault Folder := do
  match c.replacement? "ensure_dirs" with
  | some v => throw (.notCallable (s.kind v))
  | none =>
    if s.truthy (← c.log s "json_logs") then
      let path ← pathOf s (← c.log s "log_dir")
      FileFault.lift (f.makeDirectory path)
    else return f

end Settings

end Interaction
