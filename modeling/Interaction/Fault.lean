import Interaction.Text.Quoted
/-!
What can go wrong, by cause. Each cause has one wording, and belongs to one kind
that callers can tell apart.
-/

namespace Interaction

/-- Why a call or a state configuration cannot be executed. -/
inductive ConfigurationFault where
  | notMapping
  | noName
  | badService
  /-- Nothing is registered under the name, or there is no default service. -/
  | noService (name : Option String)
  | notProvided (service : Option String) (method : String)
  | badState (kind : String)
  deriving DecidableEq, Inhabited

inductive RegistrationFault where
  | noName
  | noExecute
  | taken (name : String)
  deriving DecidableEq, Inhabited

inductive ComponentFault where
  | badReference (reference : String)
  | noModule (home reason : String)
  | noMember (home member : String)
  | noInstance (reference reason : String)
  deriving DecidableEq, Inhabited

/-- The kinds of failure that a service can choose for itself. -/
inductive Failure where
  | value
  | runtime
  | key
  | lookup
  /-- The end of an iteration, which neither promises nor tasks take as a failure. -/
  | stop
  deriving DecidableEq, Inhabited

/-- How a file or directory refuses an operation. -/
inductive FileFault where
  | missing (path : String)
  | directory (path : String)
  | notDirectory (path : String)
  | present (path : String)
  | tooLong (path : String)
  | nullByte
  /-- Halves of pairs are in the path, from the first to the last of the positions. -/
  | unwritable (half first last : Nat)
  deriving DecidableEq, Inhabited

/-- Bytes that are no text: their first and last position, the first of them, and
what is wrong with them. -/
structure DecodingFault where
  first : Nat
  last : Nat
  byte : UInt8
  reason : String
  deriving DecidableEq, Inhabited

inductive Fault where
  | configuration (cause : ConfigurationFault)
  | registration (cause : RegistrationFault)
  | noMethod (method : String)
  | component (cause : ComponentFault)
  | raised (failure : Failure) (message : String)
  | notAwaitable (kind : String)
  | noMember (kind member : String)
  /-- The same of an object that is called by something else than its kind, or not
  named at all. -/
  | lacking (owner : Option String) (member : String)
  | notCallable (kind : String)
  | notIterable (kind : String)
  | noKey (kind : String)
  | noParameter
  | noDigits
  | readOnly (property owner : String)
  /-- A value of the wrong kind for an operation. -/
  | wrongKind (message : String)
  /-- A value of the right kind that an operation does not take. -/
  | badValue (message : String)
  | unknownName (name : String)
  | longNumeral (digits : Nat)
  | tooLarge (message : String)
  | outOfReach (message : String)
  | file (cause : FileFault)
  | decoding (cause : DecodingFault)
  | badDocument
  /-- A document whose text ends where it has to go on. -/
  | cutOff
  /-- Values that contain themselves, where a check or comparison never ends. -/
  | endless
  deriving DecidableEq, Inhabited

namespace ConfigurationFault

def message : ConfigurationFault → String
  | notMapping => "No service configuration object provided!"
  | noName => "Invalid service configuration: 'name' is required!"
  | badService =>
    "Invalid service configuration: 'service' has to be a non-empty string, if defined!"
  | noService (some name) =>
    "Invalid service configuration: There is no service named '" ++ name ++ "'!"
  | noService none => "Invalid service configuration: There is no default service!"
  | notProvided (some name) method =>
    "Invalid service configuration: Service '" ++ name ++ "' does not provide a method '" ++
      method ++ "'!"
  | notProvided none method =>
    "Invalid service configuration: Default service does not provide a method '" ++
      method ++ "'!"
  | badState kind => "Invalid state configuration: expected a mapping, got " ++ kind ++ "!"

end ConfigurationFault

namespace RegistrationFault

def message : RegistrationFault → String
  | noName => "A service cannot be registered without a name."
  | noExecute => "Services are required to provide an 'execute' function."
  | taken name => "There is already a service named '" ++ name ++ "'."

end RegistrationFault

namespace ComponentFault

def message : ComponentFault → String
  | badReference reference =>
    "Invalid component reference '" ++ reference ++ "', expected 'module:attribute'"
  | noModule home reason => "Cannot import module '" ++ home ++ "': " ++ reason
  | noMember home member =>
    "Module '" ++ home ++ "' has no attribute '" ++ member ++ "'"
  | noInstance reference reason => "Cannot instantiate '" ++ reference ++ "': " ++ reason

end ComponentFault

namespace FileFault

def message : FileFault → String
  | missing path => "[Errno 2] No such file or directory: " ++ Text.quoted path
  | directory path => "[Errno 21] Is a directory: " ++ Text.quoted path
  | notDirectory path => "[Errno 20] Not a directory: " ++ Text.quoted path
  | present path => "[Errno 17] File exists: " ++ Text.quoted path
  | tooLong path => "[Errno 36] File name too long: " ++ Text.quoted path
  | nullByte => "embedded null byte"
  | unwritable half first last =>
    "'utf-8' codec can't encode character" ++
      (if first = last then
        " '" ++ String.ofList (Text.numericEscape half) ++ "' in position " ++ toString first
      else "s in position " ++ toString first ++ "-" ++ toString last) ++
      ": surrogates not allowed"

def lift {α : Type} : Except FileFault α → Except Fault α
  | .ok a => .ok a
  | .error cause => .error (.file cause)

end FileFault

namespace DecodingFault

def message (f : DecodingFault) : String :=
  "'utf-8' codec can't decode " ++
    (if f.first = f.last then
      "byte 0x" ++ String.ofList (Text.hex 2 f.byte.toNat) ++ " in position " ++ toString f.first
    else "bytes in position " ++ toString f.first ++ "-" ++ toString f.last) ++
    ": " ++ f.reason

end DecodingFault

/-- What an object is: the name of its kind, and how it is called where it lacks
something, if it is named there. -/
structure Nature where
  kind : String
  owner : Option String := some ("'" ++ kind ++ "' object")
  deriving DecidableEq, Inhabited

/-- Why a member of an object cannot be used that it does not have. -/
def Nature.lack (n : Nature) (member : String) : Fault :=
  .lacking n.owner member

namespace Fault

def message : Fault → String
  | configuration cause => cause.message
  | registration cause => cause.message
  | noMethod method => "Function '" ++ method ++ "' is not provided by this service."
  | component cause => cause.message
  | raised .key message => Text.quoted message
  | raised _ message => message
  | notAwaitable kind => "object " ++ kind ++ " can't be used in 'await' expression"
  | noMember kind member =>
    "'" ++ kind ++ "' object has no attribute '" ++ member ++ "'"
  | lacking (some owner) member => owner ++ " has no attribute '" ++ member ++ "'"
  | lacking none member => member
  | notCallable kind => "'" ++ kind ++ "' object is not callable"
  | notIterable kind => "'" ++ kind ++ "' object is not iterable"
  | noKey kind => "unhashable type: '" ++ kind ++ "'"
  | noParameter => "tuple index out of range"
  | noDigits => "string index out of range"
  | readOnly property owner =>
    "property '" ++ property ++ "' of '" ++ owner ++ "' object has no setter"
  | wrongKind message => message
  | badValue message => message
  | unknownName name => Text.quoted name
  | longNumeral digits =>
    "Exceeds the limit (4300 digits) for integer string conversion: value has " ++
      toString digits ++ " digits; use sys.set_int_max_str_digits() to increase the limit"
  | tooLarge message => message
  | outOfReach message => message
  | file cause => cause.message
  | decoding cause => cause.message
  | badDocument | cutOff => "invalid YAML"
  | endless => "maximum recursion depth exceeded in comparison"

inductive Kind where
  | configuration
  | registration
  | method
  | component
  | value
  | runtime
  | key
  | lookup
  | stop
  | type
  | member
  | index
  | overflow
  | system
  | missing
  | directory
  | notDirectory
  | present
  | decoding
  | encoding
  | document
  | recursion
  deriving DecidableEq, Inhabited

def Kind.label : Kind → String
  | configuration => "aaim.errors.ServiceConfigurationError"
  | registration => "aaim.errors.ServiceRegistrationError"
  | method => "aaim.errors.MethodNotProvidedError"
  | component => "aaim.errors.ComponentLoadError"
  | value => "ValueError"
  | runtime => "RuntimeError"
  | key => "KeyError"
  | lookup => "LookupError"
  | stop => "StopIteration"
  | type => "TypeError"
  | member => "AttributeError"
  | index => "IndexError"
  | overflow => "OverflowError"
  | system => "OSError"
  | missing => "FileNotFoundError"
  | directory => "IsADirectoryError"
  | notDirectory => "NotADirectoryError"
  | present => "FileExistsError"
  | decoding => "UnicodeDecodeError"
  | encoding => "UnicodeEncodeError"
  | document => "yaml.YAMLError"
  | recursion => "RecursionError"

def kind : Fault → Kind
  | configuration _ => .configuration
  | registration _ => .registration
  | noMethod _ => .method
  | component _ => .component
  | raised .value _ => .value
  | raised .runtime _ => .runtime
  | raised .key _ => .key
  | raised .lookup _ => .lookup
  | raised .stop _ => .stop
  | notAwaitable _ => .type
  | noMember _ _ => .member
  | lacking _ _ => .member
  | notCallable _ => .type
  | notIterable _ => .type
  | noKey _ => .type
  | noParameter => .index
  | noDigits => .index
  | readOnly _ _ => .member
  | wrongKind _ => .type
  | badValue _ => .value
  | unknownName _ => .key
  | longNumeral _ => .value
  | tooLarge _ => .overflow
  | outOfReach _ => .system
  | file (.missing _) => .missing
  | file (.directory _) => .directory
  | file (.notDirectory _) => .notDirectory
  | file (.present _) => .present
  | file (.tooLong _) => .system
  | file .nullByte => .value
  | file (.unwritable _ _ _) => .encoding
  | decoding _ => .decoding
  | badDocument | cutOff => .document
  | endless => .recursion

/-- The cause with the name of its kind in front of its wording. -/
def text (f : Fault) : String :=
  f.kind.label ++ (if f.message.isEmpty then "" else ": " ++ f.message)

def isStop (f : Fault) : Bool :=
  f.kind == .stop

/-- What a task fails with when a fault comes up in it. -/
def ofTask (f : Fault) : Fault :=
  if f.isStop then .raised .runtime "coroutine raised StopIteration" else f

/-- What is raised when the end of an iteration is put into a promise. -/
def unpromised : Fault :=
  .wrongKind "StopIteration interacts badly with generators and cannot be raised into a Future"

/-- The faults of configurations, registrations and components, which the runner
reports and survives. -/
def isExpected (f : Fault) : Bool :=
  match f.kind with
  | .configuration | .registration | .method | .component => true
  | _ => false

end Fault

end Interaction
