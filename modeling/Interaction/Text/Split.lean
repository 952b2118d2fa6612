/-!
Splitting a text: at a separator, and into lines.
-/

namespace Interaction.Text

/-- The first part of a text and those after it, with separators between them. -/
def split (sep : Char) : List Char → List Char × List (List Char)
  | [] => ([], [])
  | c :: rest =>
    let (first, more) := split sep rest
    if c = sep then ([], first :: more) else (c :: first, more)

def cut? (sep : Char) : List Char → Option (List Char × List Char)
  | [] => none
  | c :: rest =>
    if c = sep then some ([], rest)
    else (cut? sep rest).map fun (before, after) => (c :: before, after)

/-- Characters after which a text goes on in a new line when it is shown. -/
def isLineEnd (c : Char) : Bool :=
  let n := c.toNat
  (0xA ≤ n && n ≤ 0xD) || (0x1C ≤ n && n ≤ 0x1E) || n = 0x85 || n = 0x2028 || n = 0x2029

/-- The lines of a text after the beginning of the first, which comes from its last
character to its first. -/
def linesFrom (begun : List Char) : List Char → List (List Char)
  | [] => if begun.isEmpty then [] else [begun.reverse]
  | '\r' :: '\n' :: rest => begun.reverse :: linesFrom [] rest
  | c :: rest =>
    if isLineEnd c then begun.reverse :: linesFrom [] rest else linesFrom (c :: begun) rest

/-- The lines of a text as it is shown. After the last end of a line there is another line
only if something stands there. -/
def lines (s : String) : List String :=
  (linesFrom [] s.toList).map String.ofList

/-- The text with every line end of two kinds of machines written as a line feed. -/
def unifyBreaks : List Char → List Char
  | '\r' :: '\n' :: rest => '\n' :: unifyBreaks rest
  | '\r' :: rest => '\n' :: unifyBreaks rest
  | c :: rest => c :: unifyBreaks rest
  | [] => []

end Interaction.Text
