import Interaction.Store
/-!
Call configurations: mappings that say which method of which service is called,
with which parameters.
-/

namespace Interaction

inductive Source where
  | literal (items : List Value)
  | derived (call : Value)
  | absent
  deriving Inhabited

namespace Store

def source (s : Store) (v : Value) : Source :=
  match s.items? v with
  | some items => .literal items
  | none => if s.isMapping v then .derived v else .absent

def mappedCalls (s : Store) (mapping : Value) : List Value :=
  ((s.items? mapping).getD []).filter s.isMapping

/-- The call for the parameter at an index, if the mapping has one. -/
def mappedCall? (s : Store) (mapping : Value) (index : Nat) : Option Value :=
  (((s.items? mapping).getD [])[index]?).filter s.isMapping

end Store

end Interaction
