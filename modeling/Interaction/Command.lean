import Interaction.Store
import Interaction.Fault
import Interaction.Text.Blank
/-!
Control words of the interactive runner. Any other line names an event.
-/

namespace Interaction

inductive Command where
  | run
  | pause
  | reset
  | state
  | quit
  | exit
  deriving DecidableEq, Inhabited

namespace Command

def all : List Command := [run, pause, reset, state, quit, exit]

def word : Command → String
  | run => "run"
  | pause => "pause"
  | reset => "reset"
  | state => "state"
  | quit => "quit"
  | exit => "exit"

/-- The control word that a line is, in letters of any size and with blanks around
it. The words are in Latin letters that no letter outside ASCII has as its
small form. -/
def parse (line : String) : Option Command :=
  let typed := (Text.trimChars line.toList).map Char.toLower
  all.find? fun command => command.word.toList = typed

/-- The control word that a value is. Bytes are never one. -/
def ofValue (s : Store) : Value → Except Fault (Option Command)
  | .text line => .ok (parse line)
  | .bytes _ => .ok none
  | v => .error (.noMember (s.kind v) "strip")

end Command

end Interaction
