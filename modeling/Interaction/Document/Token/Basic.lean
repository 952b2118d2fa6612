import Interaction.Document.Cursor
/-!
Tokens of documents.
-/

namespace Interaction.Document

/-- The smallest meaningful parts of a document. -/
inductive Token where
  /-- States the version that the document is written for. -/
  | version (major : Nat)
  /-- Gives a short handle for the beginning of tags. -/
  | tagHandle (handle start : String)
  | otherDirective
  | documentStart
  | documentEnd
  | blockSequenceStart
  | blockMappingStart
  | blockEnd
  | flowSequenceStart
  | flowSequenceEnd
  | flowMappingStart
  | flowMappingEnd
  | blockEntry
  | flowEntry
  | key
  | value
  | alias (name : String)
  | anchor (name : String)
  | tag (handle : Option String) (suffix : String)
  /-- A text; it is plain if it stands without quotes or other marks. -/
  | scalar (text : String) (plain : Bool)
  | streamEnd
  deriving DecidableEq, Inhabited

/-- A text that cannot be read as a document. -/
def refuse {α : Type} : Except Fault α :=
  .error .badDocument

/-- A text that ends where it has to go on. -/
def cutShort {α : Type} : Except Fault α :=
  .error .cutOff

end Interaction.Document
