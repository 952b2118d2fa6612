import Interaction.Calendar
import Interaction.Decimal.Shortest
/-!
Values of models, configurations and data contexts. A container is a place in a
store, so that two holders of one container see the same changes.
-/

namespace Interaction

/-- A value without parts. -/
inductive Scalar where
  | null
  | bool (b : Bool)
  | int (n : Int)
  | float (x : Float)
  /-- The result of a computation that has none. It is not equal to any number, but
  its mark tells it from others that were made. -/
  | undefined (mark : Nat)
  | text (s : String)
  | bytes (bs : List UInt8)
  | day (d : Day)
  | moment (m : Moment)
  deriving Inhabited

/-- A scalar, a fixed sequence of values, or the place of a container. -/
inductive Value where
  | scalar (s : Scalar)
  | tuple (items : List Value)
  | ref (place : Nat)
  deriving Inhabited

namespace Decimal

/-- What stands for the result of a computation that has none. -/
def undefined : Float :=
  Float.ofBits 0x7FF8000000000000

/-- The integer that a number is, if it is one. -/
def integer? (x : Float) : Option Int :=
  if x.isNaN || x.isInf then none
  else if x == 0.0 then some 0
  else
    let b := Binary.ofBits x.abs.toBits
    let unit := twos (-b.exponent).toNat
    if b.significand % unit = 0 then
      let n : Int := (b.significand / unit * twos b.exponent.toNat : Nat)
      some (if x < 0.0 then -n else n)
    else none

end Decimal

namespace Scalar

def kind : Scalar → String
  | .null => "NoneType"
  | .bool _ => "bool"
  | .int _ => "int"
  | .float _ | .undefined _ => "float"
  | .text _ => "str"
  | .bytes _ => "bytes"
  | .day _ => "date"
  | .moment _ => "datetime"

/-- Null, false, zero and the empty texts do not count as given. -/
def truthy : Scalar → Bool
  | .null => false
  | .bool b => b
  | .int n => n ≠ 0
  | .float x => !(x == 0.0)
  | .undefined _ => true
  | .text s => !s.isEmpty
  | .bytes bs => !bs.isEmpty
  | .day _ => true
  | .moment _ => true

/-- What a scalar is found by where it is looked for. Numbers of all kinds are found by the integer
that they stand for, or by their digits if they stand for none. -/
inductive Key where
  | null
  | whole (n : Int)
  | broken (bits : UInt64)
  | undefined (mark : Nat)
  | text (s : String)
  | bytes (bs : List UInt8)
  | day (d : Day)
  | moment (instant : Bool × Int)
  deriving DecidableEq

def key? : Scalar → Option Key
  | .null => some .null
  | .bool b => some (.whole (if b then 1 else 0))
  | .int n => some (.whole n)
  | .float x =>
    if x.isNaN then none
    else
      match Decimal.integer? x with
      | some n => some (.whole n)
      | none => some (.broken x.toBits)
  | .undefined mark => some (.undefined mark)
  | .text s => some (.text s)
  | .bytes bs => some (.bytes bs)
  | .day d => some (.day d)
  | .moment m => some (.moment m.instant)

/-- Whether a scalar is found where another one is looked for. A number that is undefined is found
by its mark only. -/
def same (s t : Scalar) : Bool :=
  match s.key?, t.key? with
  | some k, some l => k = l
  | _, _ => false

end Scalar

namespace Value

@[match_pattern] abbrev null : Value := .scalar .null
@[match_pattern] abbrev bool (b : Bool) : Value := .scalar (.bool b)
@[match_pattern] abbrev int (n : Int) : Value := .scalar (.int n)
@[match_pattern] abbrev float (x : Float) : Value := .scalar (.float x)
@[match_pattern] abbrev text (s : String) : Value := .scalar (.text s)
@[match_pattern] abbrev bytes (bs : List UInt8) : Value := .scalar (.bytes bs)

def isNull : Value → Bool
  | .null => true
  | _ => false

def text? : Value → Option String
  | .text s => some s
  | _ => none

mutual

def isUndefined : Value → Bool
  | .scalar (.undefined _) => true
  | _ => false

/-- Equality of keys: by content where there is no container, and a container is
equal to itself only. -/
def sameKey : Value → Value → Bool
  | .scalar s, .scalar t => s.same t
  | .tuple xs, .tuple ys => sameKeys xs ys
  | .ref p, .ref q => p = q
  | _, _ => false

def sameKeys : List Value → List Value → Bool
  | [], [] => true
  | x :: xs, y :: ys => x.sameKey y && sameKeys xs ys
  | _, _ => false

end

end Value

/-- The entries of a mapping in the order in which their keys came in. -/
abbrev Entries := List (Value × Value)

namespace Entries

def get? (entries : Entries) (key : Value) : Option Value :=
  (entries.find? fun entry => entry.1.sameKey key).map (·.2)

/-- Gives a key its value. A key that is there already keeps its place. -/
def put (entries : Entries) (key value : Value) : Entries :=
  match entries with
  | [] => [(key, value)]
  | entry :: rest =>
    if entry.1.sameKey key then (entry.1, value) :: rest else entry :: put rest key value

/-- Gives a key its value unless it has one. -/
def putNew (entries : Entries) (key value : Value) : Entries :=
  if (entries.get? key).isSome then entries else entries ++ [(key, value)]

def erase (entries : Entries) (key : Value) : Entries :=
  entries.eraseP fun entry => entry.1.sameKey key

end Entries

end Interaction
