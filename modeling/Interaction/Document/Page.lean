import Interaction.Document.Cursor
import Interaction.Text.Reader
/-!
The text of a document, page by page. A page is read when the scanner gets to it, so
what is wrong with a page matters only to those who come that far.
-/

namespace Interaction.Document

/-- The characters that can be read, and what is met after the last of them. -/
structure Pages where
  text : List Char := []
  /-- Why the next page cannot be read; there is none after the last one. -/
  beyond : Option Fault := none
  deriving Inhabited

namespace Pages

def size : Nat := 4096

/-- The pages from one on, where the text of the first has been read. -/
def ofText (found : List Char) (r : Text.Reader) : Nat → Pages
  | 0 => {}
  | fuel + 1 =>
    if !found.all isAllowed then { beyond := some .badDocument }
    else if found.length < size then { text := found }
    else
      match r.read size with
      | .error fault => { text := found, beyond := some fault }
      | .ok (next, r) =>
        let rest := ofText next r fuel
        { rest with text := found ++ rest.text }

/-- The pages that bytes make. The first two are read together. -/
def ofBytes (bytes : List UInt8) : Pages :=
  let first := do
    let (first, r) ← Text.Reader.read { bytes } size
    let (second, r) ← r.read size
    return (first ++ second, r)
  match first with
  | .error fault => { beyond := some fault }
  | .ok (found, r) => ofText found r (bytes.length / size + 2)

end Pages

end Interaction.Document
