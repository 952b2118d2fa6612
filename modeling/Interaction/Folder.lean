import Interaction.Fault
import Interaction.Text.Split
/-!
Files and directories below a working directory.
-/

namespace Interaction

/-- The way to a file: the names of the directories on it and its own. -/
structure Path where
  /-- The slashes in front of a path that begins at the root. -/
  root : String := ""
  names : List String := []
  deriving DecidableEq, Inhabited

namespace Path

/-- The slashes that stand for the root in front of a text. Two of them are kept, more
count as one. -/
def rootOf (cs : List Char) : String :=
  match (cs.takeWhile (· = '/')).length with
  | 0 => ""
  | 2 => "//"
  | _ => "/"

def ofString (s : String) : Path :=
  let (first, more) := Text.split '/' s.toList
  { root := rootOf s.toList
    names := ((first :: more).map String.ofList).filter fun part => part ≠ "" && part ≠ "." }

def text (p : Path) : String :=
  if p.root.isEmpty && p.names.isEmpty then "." else p.root ++ "/".intercalate p.names

/-- A path that goes on from another one, unless it begins at the root. -/
def join (p q : Path) : Path :=
  if q.root.isEmpty then { p with names := p.names ++ q.names } else q

def outer (p : Path) : Path :=
  { p with names := p.names.dropLast }

/-- The path to a place, whose first name is a slash if it is reached from the root. -/
def ofPlace : List String → Path
  | "/" :: names => { root := "/", names }
  | names => { names }

/-- Takes a name to the names that lead to a directory, from the last to the first. Two
points lead back out of it. -/
def turn (isRooted : Bool) : List String → String → List String
  | [], ".." => if isRooted then [] else [".."]
  | ".." :: around, ".." => ".." :: ".." :: around
  | _ :: around, ".." => around
  | around, name => name :: around

/-- The path without ways into a directory and out again. -/
def straight (p : Path) : Path :=
  { p with names := (p.names.foldl (turn !p.root.isEmpty) []).reverse }

/-- How many bytes a code point has in a name. Some halves of pairs stand for a single
byte. -/
def byteSize (n : Nat) : Nat :=
  if Text.isHalf n then 1
  else if n < 0x80 then 1 else if n < 0x800 then 2 else if n < 0x10000 then 3 else 4

def bytesOf (s : String) : Nat :=
  (Text.points s.toList).foldl (fun count n => count + byteSize n) 0

/-- Whether a code point has no bytes that it could have in a name. -/
def hasNoBytes (n : Nat) : Bool :=
  Text.isHalf n && !(0xDC80 ≤ n && n ≤ 0xDCFF)

/-- Where code points cannot be written as bytes: the first of them, and how many halves
of pairs follow each other from there. -/
def unwritable? (ns : List Nat) : Option (Nat × Nat × Nat) :=
  match ns.span fun n => !hasNoBytes n with
  | (before, n :: rest) => some (n, before.length, (rest.takeWhile Text.isHalf).length)
  | (_, []) => none

/-- Why no file can have such a path. -/
def flaw? (p : Path) : Option FileFault :=
  match unwritable? (Text.points p.text.toList) with
  | some (half, first, more) => some (.unwritable half first (first + more))
  | none => if p.text.toList.contains (Char.ofNat 0) then some .nullByte else none

end Path

inductive Item where
  | file (bytes : List UInt8)
  | directory
  /-- What takes everything in and gives nothing back. -/
  | void
  deriving Inhabited

inductive Status where
  | file (bytes : List UInt8)
  | directory
  | void
  | missing
  /-- A file stands where the path needs a directory. -/
  | blocked
  /-- The path or a name in it has too many bytes. -/
  | tooLong
  deriving Inhabited

/-- Files and directories by the names that lead to them. The first name is a slash for
what is reached from the root. -/
structure Folder where
  items : List (List String × Item) := []
  deriving Inhabited

namespace Folder

def rootDirectories : List String :=
  ["bin", "boot", "dev", "etc", "home", "lib", "media", "mnt", "opt", "proc", "root", "run",
   "sbin", "srv", "sys", "tmp", "usr", "var"]

/-- What is always there: the working directory, those around it, and what stands at every
root. -/
def given? : List String → Option Item
  | [] | ["/"] => some .directory
  | ["/", "dev", "null"] => some .void
  | ["/", name] => if rootDirectories.contains name then some .directory else none
  | names => if names.all (· = "..") then some .directory else none

def item? (f : Folder) (place : List String) : Option Item :=
  (given? place).or (f.items.lookup place)

def around (place : List String) : List String :=
  if place = ["/"] then place
  else if place.all (· = "..") then ".." :: place
  else place.dropLast

def maxName : Nat := 255

def maxPath : Nat := 4095

/-- What a path leads to from a place, and that place. -/
def walk (f : Folder) (place : List String) : List String → Status × List String
  | [] =>
    match f.item? place with
    | some (.file bytes) => (.file bytes, place)
    | some .directory => (.directory, place)
    | some .void => (.void, place)
    | none => (.missing, place)
  | part :: rest =>
    match f.item? place with
    | some (.file _) | some .void => (.blocked, place)
    | none => (.missing, place ++ part :: rest)
    | some .directory =>
      if part = ".." then f.walk (around place) rest
      else if maxName < Path.bytesOf part then (.tooLong, place)
      else f.walk (place ++ [part]) rest

def start (p : Path) : List String :=
  if p.root.isEmpty then [] else ["/"]

def reach (f : Folder) (p : Path) : Status × List String :=
  if maxPath < Path.bytesOf p.text then (.tooLong, []) else f.walk (start p) p.names

/-- What a path leads to. Where no file can be there is none. -/
def status (f : Folder) (p : Path) : Except FileFault Status :=
  if p.flaw?.isSome then .ok .missing
  else
    match (f.reach p).1 with
    | .tooLong => .error (.tooLong p.text)
    | status => .ok status

def put (f : Folder) (place : List String) (item : Item) : Folder :=
  { items := (f.items.filter fun entry => entry.1 ≠ place) ++ [(place, item)] }

def isFile (f : Folder) (p : Path) : Except FileFault Bool := do
  match ← f.status p with
  | .file _ => return true
  | _ => return false

def isDirectory (f : Folder) (p : Path) : Except FileFault Bool := do
  match ← f.status p with
  | .directory => return true
  | _ => return false

/-- Refuses a path at which no file can be. -/
def checkPath (p : Path) : Except FileFault Unit :=
  match p.flaw? with
  | some fault => .error fault
  | none => .ok ()

def read (f : Folder) (p : Path) : Except FileFault (List UInt8) := do
  checkPath p
  match (f.reach p).1 with
  | .file bytes => return bytes
  | .void => return []
  | .directory => throw (.directory p.text)
  | .missing => throw (.missing p.text)
  | .blocked => throw (.notDirectory p.text)
  | .tooLong => throw (.tooLong p.text)

/-- The place of something new, which needs a directory around it. -/
def newPlace (f : Folder) (p : Path) : Option (List String) :=
  match f.reach p.outer, p.names.getLast? with
  | (.directory, place), some name => some (place ++ [name])
  | _, _ => none

def makeOne (f : Folder) (p : Path) : Except FileFault Folder := do
  checkPath p
  match (f.reach p).1 with
  | .file _ | .directory | .void => throw (.present p.text)
  | .blocked => throw (.notDirectory p.text)
  | .tooLong => throw (.tooLong p.text)
  | .missing =>
    match f.newPlace p with
    | some place => return f.put place .directory
    | none => throw (.missing p.text)

/-- Makes one directory, unless it is there already. -/
def makeMissing (f : Folder) (p : Path) : Except FileFault Folder :=
  match f.makeOne p with
  | .ok f => .ok f
  | .error fault =>
    match fault with
    | .present _ | .notDirectory _ | .tooLong _ => do
      if ← f.isDirectory p then return f else throw fault
    | fault => .error fault

/-- Makes a directory and those around it. The names of the path come from the last to
the first. -/
def makeFrom (f : Folder) (root : String) : List String → Except FileFault Folder
  | [] => f.makeMissing { root }
  | name :: outer =>
    let p : Path := { root, names := (name :: outer).reverse }
    match f.makeMissing p with
    | .error (.missing _) => do
      let f ← f.makeFrom root outer
      f.makeMissing p
    | result => result

/-- Makes a directory and those around it, as far as they are not there already. -/
def makeDirectory (f : Folder) (p : Path) : Except FileFault Folder :=
  f.makeFrom p.root p.names.reverse

/-- Opens a file to write at its end. It is made if it is not there. -/
def openEnd (f : Folder) (p : Path) : Except FileFault (Folder × List String) := do
  checkPath p
  match f.reach p with
  | (.file _, place) | (.void, place) => return (f, place)
  | (.directory, _) => throw (.directory p.text)
  | (.blocked, _) => throw (.notDirectory p.text)
  | (.tooLong, _) => throw (.tooLong p.text)
  | (.missing, _) =>
    match f.newPlace p with
    | some place => return (f.put place (.file []), place)
    | none => throw (.missing p.text)

def append (f : Folder) (place : List String) (bytes : List UInt8) : Folder :=
  { items := f.items.map fun (at_, item) =>
      match item with
      | .file old => (at_, if at_ = place then .file (old ++ bytes) else .file old)
      | item => (at_, item) }

def addFile (f : Folder) (p : Path) (bytes : List UInt8) : Folder :=
  match f.makeDirectory p.outer with
  | .ok f => f.put (start p ++ p.names) (.file bytes)
  | .error _ => f

/-- Whether a place is below the working directory. -/
def isBelow (place : List String) : Bool :=
  match place.head? with
  | none => false
  | some name => name ≠ "/" && name ≠ ".."

/-- The paths of all directories below the working directory. -/
def directories (f : Folder) : List String :=
  f.items.filterMap fun (place, item) =>
    match item with
    | .directory => if isBelow place then some ("/".intercalate place) else none
    | _ => none

def names (f : Folder) : List String :=
  f.items.filterMap fun (place, _) =>
    match place with
    | [name] => if isBelow place then some name else none
    | _ => none

end Folder

end Interaction
