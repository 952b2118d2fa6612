/-!
What each home of the program says about itself.
-/

namespace Interaction.Catalogue

def descriptions : List (String × String) := [
  ("aaim",
    "\naaim — Interpreter for Abstract Application Interaction Models.\n"),
  ("aaim.__main__",
    "\nAAIM interpreter — interactive runner.\nEntry point: python -m aaim [config.yaml]\n"),
  ("aaim.core",
    "\naaim.core — State machine interpreter and behavior coordinator.\n"),
  ("aaim.core.behavior",
    "\naaim.core.behavior — Coordinator of the behavior on state entry and transitions.\n\n" ++
    "Turns declarative ``do`` configurations into service calls:\n\n" ++
    "  - parameters are either literal lists (with ``$\x7b...\x7d`` references into the\n" ++
    "    shared data context) or the result of another service call\n" ++
    "  - parameters can be mapped one by one through further service calls\n" ++
    "  - results can be mapped through a further service call\n" ++
    "  - state configurations end in ``SituationFactory.create`` or ``refresh``\n\n" ++
    "Configuration faults (malformed call configs, unknown services or methods)\n" ++
    "are raised synchronously, before any asynchronous work is scheduled.\n" ++
    "Errors raised by services propagate through the returned awaitables.\n" ++
    "All entry points must be called from a running event loop.\n"),
  ("aaim.core.interpreter",
    "\naaim.core.interpreter — State machine interpreting a loaded interaction model.\n\n" ++
    "The interpreter only tracks states and picks transitions. Everything a state\n" ++
    "or transition actually does is delegated to an AAIMBehavior.\n"),
  ("aaim.core.parameters",
    "\naaim.core.parameters — Resolution of parameter lists against the data context.\n\n" ++
    "A parameter is either a literal value or a reference string such as\n" ++
    "``\"$\x7buser\x7d\"`` or ``\"$\x7buser.address.city\x7d\"``. " ++
    "References are looked up in the\n" ++
    "data context; dotted paths navigate mappings by key and sequences by index.\n"),
  ("aaim.errors",
    "\naaim.errors — Exceptions raised for configuration faults.\n\n" ++
    "Execution errors raised by services are never wrapped: they propagate\n" ++
    "unchanged through the awaitables returned by the behavior coordinator.\n"),
  ("aaim.observability",
    "\naaim.observability — Structured logging.\n"),
  ("aaim.observability.logger",
    "\naaim.observability.logger — Structured JSON logging for the interpreter.\n"),
  ("aaim.runtime",
    "\naaim.runtime — Wires configuration, services, factory and interpreter together\n" ++
    "and drives an interactive command loop.\n"),
  ("aaim.services",
    "\naaim.services — Service contract, reference base class, and component loading.\n"),
  ("aaim.services.base",
    "\naaim.services.base — Service contract and reference base class.\n\n" ++
    "A service is anything with ``provides(method)`` and ``execute(method, *params)``.\n" ++
    "The behavior coordinator only relies on that structural contract; AAIMService\n" ++
    "is a convenience base that keeps provided functions in a name → callable map\n" ++
    "and always hands back an awaitable.\n"),
  ("aaim.services.loader",
    "\naaim.services.loader — Dynamic loading of services and situation factories.\n\n" ++
    "Components are referenced as ``\"package.module:attribute\"``. The module is\n" ++
    "imported with importlib; classes are instantiated without arguments, any\n" ++
    "other attribute (e.g. a ready-made service instance) is returned as is.\n"),
  ("aaim.situation",
    "\naaim.situation — Situation factory contract.\n"),
  ("aaim.situation.factory",
    "\naaim.situation.factory — Materialization of situations on state entry.\n"),
  ("aaim.utils",
    "\naaim.utils — Shared configuration, enumerations, and document types.\n"),
  ("aaim.utils.config",
    "\naaim.utils.config — Centralized configuration with YAML loading and defaults.\n"),
  ("aaim.utils.enums",
    "\naaim.utils.enums — Enumerations shared across the interpreter.\n"),
  ("aaim.utils.types",
    "\naaim.utils.types — Typed views of the interaction model document.\n\n" ++
    "Model documents are plain dicts and lists (parsed from YAML/JSON or built\n" ++
    "in code). These TypedDicts only describe their shape; nothing here copies\n" ++
    "or validates a document.\n")]

end Interaction.Catalogue
