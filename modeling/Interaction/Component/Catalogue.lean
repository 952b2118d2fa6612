import Interaction.Component.Basic
import Interaction.Component.Descriptions
/-!
The components that the program brings along: all that its homes have names for, also
what they only use themselves.
-/

namespace Interaction.Catalogue

/-- Members that show no more than their kind. -/
def objects (kind : String) (names : List String) : List (String × Component) :=
  names.map fun name => (name, .ready (.object { kind }))

/-- Members of a kind that are called by their own names where they lack something. -/
def aliases (kind : String) (names : List String) : List (String × Component) :=
  names.map fun name =>
    (name, .ready (.object { kind, owner := some ("type object " ++ Text.quoted name) }))

/-- A home as a member of another one. -/
def homeObject (name : String) : Component :=
  .ready (.object { kind := "module", owner := some ("module " ++ Text.quoted name) })

/-- Blueprints of objects that show no more than their kind. -/
def plainBlueprints (names : List String) : List (String × Component) :=
  names.map fun name => (name, .blueprint { name, made := .ok (.object { kind := name }) })

/-- A blueprint of objects that are of a kind of another name. -/
def renamedBlueprint (name : String) (nature : Nature) : String × Component :=
  (name, .blueprint { name, made := .ok (.object nature) })

/-- Blueprints that nothing can be made from as they are. -/
def refusingBlueprints (kind reason : String) (names : List String) :
    List (String × Component) :=
  names.map fun name => (name, .blueprint { name, kind, made := .error reason })

def mappingBlueprints (names : List String) : List (String × Component) :=
  names.map fun name => (name, .blueprint { name, kind := "_TypedDictMeta", made := .ok .mapping })

/-- Why something cannot be made without a parameter. -/
def missingParameter (operation name : String) : String :=
  operation ++ " missing 1 required positional argument: " ++ Text.quoted name

/-- Why something cannot be made without an argument in the first place. -/
def missingArgument (operation name : String) : String :=
  operation ++ " missing required argument " ++ Text.quoted name ++ " (pos 1)"

/-- What only describes others. Nothing is made from it as long as it has no methods. -/
def abstractBlueprint (name methods : String) : String × Component :=
  (name, .blueprint
    { name, kind := "ABCMeta"
      made := .error
        ("Can't instantiate abstract class " ++ name ++ " with abstract methods " ++ methods) })

def emptyService : Service :=
  { nature := { kind := "AAIMService" }, provision := .listed, execution := .wrapped }

def anything : Component :=
  .blueprint { name := "Any", kind := "_AnyMeta", made := .error "Any cannot be instantiated" }

/-- What the homes take from others to describe what they use. -/
def foreignMembers : List (String × Component) :=
  [("Any", anything), ("Param", anything),
   ("MappingProxyType",
    .blueprint
      { name := "mappingproxy", made := .error (missingArgument "mappingproxy()" "mapping") }),
   ("Optional", .ready (.object { kind := "_SpecialForm", owner := none })),
   ("_REFERENCE", .ready (.object { kind := "Pattern", owner := some "'re.Pattern' object" })),
   ("TransitionRecord",
    .ready (.object { kind := "GenericAlias", owner := some "type object 'tuple'" })),
   renamedBlueprint "deque" { kind := "deque", owner := some "'collections.deque' object" },
   renamedBlueprint "Path" { kind := "PosixPath" },
   abstractBlueprint "Mapping" "__getitem__, __iter__, __len__",
   abstractBlueprint "Sequence" "__getitem__, __len__",
   ("Protocol",
    .blueprint
      { name := "Protocol", kind := "_ProtocolMeta"
        made := .ok (.object { kind := "Protocol" }) })] ++
  refusingBlueprints "type" (missingArgument "function" "year") ["datetime"] ++
  refusingBlueprints "type" (missingArgument "timezone()" "offset") ["timezone"] ++
  refusingBlueprints "EnumType" (missingParameter "EnumType.__call__()" "value") ["Enum"] ++
  plainBlueprints ["auto"] ++
  aliases "_SpecialGenericAlias" ["Iterable", "Awaitable"] ++
  aliases "_CallableType" ["Callable"] ++
  objects "_Feature" ["annotations"] ++
  objects "function" ["runtime_checkable", "TypedDict", "dataclass", "field"] ++
  ["asyncio", "functools", "importlib", "inspect", "json", "logging", "re", "sys", "time",
    "yaml"].map fun name => (name, homeObject name)

/-- What the names of members stand for, whatever home they are in. -/
def members : List (String × Component) :=
  [("__version__", .ready (.scalar (.text "0.1.0"))),
   ("DEFAULT_SERVICE", .ready (.scalar (.text ""))),
   ("_BOOL_TAG", .ready (.scalar (.text "tag:yaml.org,2002:bool"))),
   ("AAIMService", .blueprint { name := "AAIMService", made := .ok (.service emptyService []) }),
   ("SituationFactory",
    .blueprint { name := "SituationFactory", made := .ok (.factory .silent) }),
   ("LoggingSituationFactory",
    .blueprint { name := "LoggingSituationFactory", made := .ok (.factory .logging) })] ++
  plainBlueprints
    ["AAIMBehavior", "AAIMInterpreter", "AAIMConfig", "ObservabilityConfig",
     "InterpreterConfig", "RuntimeConfig", "JSONFormatter", "AAIMError",
     "ServiceConfigurationError", "ServiceRegistrationError", "ComponentLoadError"] ++
  mappingBlueprints
    ["ServiceCallConfig", "StateBehavior", "Event", "State", "InteractionModel"] ++
  refusingBlueprints "EnumType" (missingParameter "EnumType.__call__()" "value")
    ["ParameterSource", "RunnerCommand"] ++
  refusingBlueprints "_ProtocolMeta" "Protocols cannot be instantiated" ["ServiceProtocol"] ++
  refusingBlueprints "type" (missingParameter "MethodNotProvidedError.__init__()" "method")
    ["MethodNotProvidedError"] ++
  refusingBlueprints "type" (missingParameter "AAIMRuntime.__init__()" "config")
    ["AAIMRuntime"] ++
  refusingBlueprints "type" (missingParameter "SafeLoader.__init__()" "stream")
    ["ModelLoader"] ++
  objects "function"
    ["_state_name", "_step", "build_behavior", "classify_parameters", "is_call_config",
     "load_component", "main", "read_model", "resolve_parameter", "resolve_parameters",
     "resolve_reference", "run", "setup_logging", "split_reference"] ++
  objects "Logger" ["logger"] ++ foreignMembers

/-- What every home has, whoever brings it along. -/
def commonMembers : List (String × Component) :=
  [("__annotations__", .ready .mapping),
   ("__class__",
    .blueprint { name := "module", made := .error (missingArgument "module()" "name") })] ++
  objects "dict" ["__dict__"] ++
  objects "method-wrapper"
    ["__delattr__", "__eq__", "__ge__", "__getattribute__", "__gt__", "__hash__", "__init__",
     "__le__", "__lt__", "__ne__", "__repr__", "__setattr__", "__str__"] ++
  objects "builtin_function_or_method"
    ["__dir__", "__format__", "__getstate__", "__init_subclass__", "__new__", "__reduce__",
     "__reduce_ex__", "__sizeof__", "__subclasshook__"]

/-- What a home says about itself. `around` is the home for which others are looked for
beside it, `origin` the name under which its text is kept. -/
def selfMembers (name around origin about : String) : List (String × Component) :=
  let path := "/".intercalate (origin.splitOn ".")
  [("__name__", .ready (.scalar (.text name))), ("__package__", .ready (.scalar (.text around))),
   ("__doc__",
    .ready (.scalar (((descriptions.lookup about).map Scalar.text).getD .null))),
   ("__file__", .ready (.scalar (.text (path ++ ".py")))),
   ("__cached__", .ready (.scalar (.text (path ++ ".pyc"))))] ++
  objects "ModuleSpec" ["__spec__"] ++ objects "SourceFileLoader" ["__loader__"] ++
  objects "dict" ["__builtins__"] ++ commonMembers

def named (names : List String) : List (String × Component) :=
  names.filterMap fun name => (members.lookup name).map fun component => (name, component)

def aroundOf (name : String) : String :=
  ".".intercalate (name.splitOn ".").dropLast

/-- A home without homes inside it. -/
def single (name : String) (names : List String) : Home :=
  { name, members := named names ++ selfMembers name (aroundOf name) name name }

/-- A home with others inside it, and the names that it offers. It can also be reached as
a home in itself that has none. -/
def package (name : String) (inner names : List String) : List Home :=
  let start := name ++ ".__init__"
  let shown := names.filter (· ≠ "__version__")
  let offered := ("__all__", Component.ready (.texts shown)) :: named names
  let inside := inner.map fun part => (part, homeObject (name ++ "." ++ part))
  [{ name, isPackage := true
     members := inside ++ offered ++ objects "list" ["__path__"] ++
       selfMembers name name start name },
   { name := start, members := offered ++ selfMembers start name start name }]

def homes : List Home :=
  package "aaim" ["core", "errors", "observability", "runtime", "services", "situation", "utils"]
    ["AAIMBehavior", "AAIMInterpreter", "AAIMService", "ServiceProtocol", "SituationFactory",
     "__version__"] ++
  package "aaim.core" ["behavior", "interpreter", "parameters"]
    ["AAIMBehavior", "AAIMInterpreter", "resolve_parameters"] ++
  package "aaim.observability" ["logger"] ["setup_logging", "JSONFormatter"] ++
  package "aaim.services" ["base", "loader"]
    ["AAIMService", "ServiceProtocol", "load_component"] ++
  package "aaim.situation" ["factory"] ["SituationFactory", "LoggingSituationFactory"] ++
  package "aaim.utils" ["config", "enums", "types"]
    ["ParameterSource", "RunnerCommand", "AAIMConfig", "classify_parameters"] ++
  [single "aaim.__main__"
     ["asyncio", "logging", "sys", "AAIMError", "setup_logging", "AAIMRuntime", "AAIMConfig",
      "logger", "main", "run"],
   single "aaim.core.behavior"
     ["annotations", "asyncio", "logging", "Mapping", "MappingProxyType", "Any", "Optional",
      "resolve_parameters", "ServiceConfigurationError", "ServiceRegistrationError",
      "ServiceProtocol", "SituationFactory", "ParameterSource", "ServiceCallConfig",
      "StateBehavior", "classify_parameters", "is_call_config", "logger", "DEFAULT_SERVICE",
      "AAIMBehavior"],
   single "aaim.core.interpreter"
     ["annotations", "asyncio", "functools", "inspect", "logging", "time", "deque", "Mapping",
      "Any", "Optional", "InteractionModel", "State", "logger", "TransitionRecord",
      "_state_name", "AAIMInterpreter"],
   single "aaim.core.parameters"
     ["annotations", "re", "Mapping", "Sequence", "Any", "Iterable", "_REFERENCE", "_step",
      "resolve_reference", "resolve_parameter", "resolve_parameters"],
   single "aaim.errors"
     ["AAIMError", "ServiceConfigurationError", "ServiceRegistrationError",
      "MethodNotProvidedError", "ComponentLoadError"],
   single "aaim.observability.logger"
     ["annotations", "json", "logging", "datetime", "timezone", "Path", "ObservabilityConfig",
      "JSONFormatter", "setup_logging"],
   single "aaim.runtime"
     ["annotations", "asyncio", "logging", "re", "Path", "Any", "Optional", "yaml",
      "AAIMBehavior", "AAIMInterpreter", "AAIMError", "load_component",
      "LoggingSituationFactory", "AAIMConfig", "RuntimeConfig", "RunnerCommand", "logger",
      "_BOOL_TAG", "ModelLoader", "build_behavior", "read_model", "AAIMRuntime"],
   single "aaim.services.base"
     ["annotations", "asyncio", "inspect", "logging", "Any", "Awaitable", "Callable",
      "Optional", "Protocol", "runtime_checkable", "MethodNotProvidedError", "logger",
      "ServiceProtocol", "AAIMService"],
   single "aaim.services.loader"
     ["annotations", "importlib", "logging", "Any", "ComponentLoadError", "logger",
      "split_reference", "load_component"],
   single "aaim.situation.factory"
     ["annotations", "logging", "Any", "logger", "SituationFactory",
      "LoggingSituationFactory"],
   single "aaim.utils.config"
     ["annotations", "dataclass", "field", "Path", "Any", "yaml", "ObservabilityConfig",
      "InterpreterConfig", "RuntimeConfig", "AAIMConfig"],
   single "aaim.utils.enums" ["Enum", "auto", "ParameterSource", "RunnerCommand"],
   single "aaim.utils.types"
     ["annotations", "Mapping", "Any", "TypedDict", "ParameterSource", "Param",
      "ServiceCallConfig", "StateBehavior", "Event", "State", "InteractionModel",
      "classify_parameters", "is_call_config"]]

end Interaction.Catalogue
