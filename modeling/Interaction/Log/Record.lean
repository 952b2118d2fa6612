import Interaction.Datum
import Interaction.Fault
/-!
Records of what the interpreter reports, before any of them is written.
-/

namespace Interaction

namespace Level

def debug : Nat := 10

def info : Nat := 20

def warning : Nat := 30

def error : Nat := 40

def name (level : Int) : String :=
  if level = 0 then "NOTSET"
  else if level = 10 then "DEBUG"
  else if level = 20 then "INFO"
  else if level = 30 then "WARNING"
  else if level = 40 then "ERROR"
  else if level = 50 then "CRITICAL"
  else "Level " ++ toString level

end Level

structure Record where
  level : Int
  logger : String
  message : String
  /-- The name of the state that the report is about. -/
  state : Option Datum := none
  fault : Option Fault := none
  /-- Whether a failure was to be reported where there was none. -/
  faultless : Bool := false
  deriving Inhabited

namespace Record

def interpreter (level : Nat) (message : String) : Record :=
  { level, logger := "aaim.core.interpreter", message }

def behavior (level : Nat) (message : String) : Record :=
  { level, logger := "aaim.core.behavior", message }

def service (level : Nat) (message : String) : Record :=
  { level, logger := "aaim.services.base", message }

def component (level : Nat) (message : String) : Record :=
  { level, logger := "aaim.services.loader", message }

def situation (level : Nat) (message : String) : Record :=
  { level, logger := "aaim.situation.factory", message }

def runner (level : Nat) (message : String) : Record :=
  { level, logger := "aaim.runtime", message }

/-- A report of the program as a whole. -/
def program (level : Nat) (message : String) : Record :=
  { level, logger := "aaim", message }

end Record

end Interaction
