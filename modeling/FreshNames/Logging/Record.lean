import FreshNames.Text.CodeTable

/-!
# Log records

A record is a message on a level, sent to a named logger.

* `Record.debug` - a message for those who look for errors;
* `Level` - the levels that have names; `Level.nameOf` - the name of any level.
-/

set_option autoImplicit false

namespace FreshNames

/-- The levels that have names. -/
inductive Level
  | unset
  | debug
  | info
  | warning
  | error
  | critical
  deriving DecidableEq, Repr

namespace Level

/-- The number of a level. -/
def number : Level → Int
  | unset => 0
  | debug => 10
  | info => 20
  | warning => 30
  | error => 40
  | critical => 50

/-- The name of a level. -/
def name : Level → Text
  | unset => "NOTSET".toList
  | debug => "DEBUG".toList
  | info => "INFO".toList
  | warning => "WARNING".toList
  | error => "ERROR".toList
  | critical => "CRITICAL".toList

/-- All levels that have names. -/
def all : List Level := [unset, debug, info, warning, error, critical]

/-- The name of the level with a number, which need not have a name of its own. -/
def nameOf (n : Int) : Text :=
  match all.find? (·.number == n) with
  | some l => l.name
  | none => s!"Level {n}".toList

end Level

/-- A message on a level, sent to a logger. -/
structure Record where
  logger : Text
  level : Int
  message : Text
  deriving DecidableEq, Repr

/-- A message for those who look for errors. -/
def Record.debug (logger : String) (message : Text) : Record :=
  ⟨logger.toList, Level.debug.number, message⟩

end FreshNames
