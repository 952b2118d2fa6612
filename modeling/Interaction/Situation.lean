import Interaction.Value
import Interaction.Fault
/-!
Factories: what a resolved state configuration is handed to.
-/

namespace Interaction

/-- An object in the role of a factory of situations. -/
inductive Factory where
  | absent
  /-- Records what it is asked for, refuses some situations, and writes the others
  into the data context. -/
  | recording (refused : List Value) (key : Option Value)
  | logging
  | silent
  /-- An object of another kind, that makes no situations. -/
  | foreign (nature : Nature)
  deriving Inhabited

namespace Factory

def kind : Factory → String
  | absent => "NoneType"
  | recording _ _ => "RecordingFactory"
  | logging => "LoggingSituationFactory"
  | silent => "SituationFactory"
  | foreign nature => nature.kind

end Factory

end Interaction
