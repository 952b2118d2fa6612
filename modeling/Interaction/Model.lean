import Interaction.Document.Read
import Interaction.Folder
import Interaction.Text.Utf8
import Interaction.Log.Record
/-!
Reading model documents from files.
-/

namespace Interaction

def pathOf (s : Store) : Value → Except Fault Path
  | .text t => .ok (Path.ofString t)
  | v => .error (.wrongKind ("expected str, bytes or os.PathLike object, not " ++ s.kind v))

/-- The model document in a file, null if there is no such file or no document in
it. -/
def readModel (f : Folder) (s : Store) (path : Value) :
    Except Fault (Store × Value × List Record) := do
  let path ← pathOf s path
  if !(← FileFault.lift (f.isFile path)) then
    return (s, .null, [.runner Level.error ("Model file not found: " ++ path.text)])
  match Document.read Document.Schema.model s (← FileFault.lift (f.read path)) with
  | .ok (s, v) => return (s, v, [])
  | .error fault =>
    if fault.kind = .document then
      return (s, .null, [.runner Level.error ("Cannot parse model file " ++ path.text ++ ": " ++
        fault.message)])
    else throw fault

end Interaction
