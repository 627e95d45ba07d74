/-!
# Log levels

Levels by name, with their severities, and the records that carry them.
-/

set_option autoImplicit false

namespace CatalogSearch.Logging

inductive Level where
  | debug
  | info
  | warning
  | error
  | critical
  | notset
  deriving DecidableEq, Repr

def Level.name : Level → String
  | debug => "DEBUG"
  | info => "INFO"
  | warning => "WARNING"
  | error => "ERROR"
  | critical => "CRITICAL"
  | notset => "NOTSET"

def Level.severity : Level → Nat
  | debug => 10
  | info => 20
  | warning => 30
  | error => 40
  | critical => 50
  | notset => 0

/-- The level of a name in capitals; two levels have a second name. -/
def Level.named? (name : String) : Option Level :=
  if name = "DEBUG" then some .debug
  else if name = "INFO" then some .info
  else if name = "WARNING" ∨ name = "WARN" then some .warning
  else if name = "ERROR" then some .error
  else if name = "CRITICAL" ∨ name = "FATAL" then some .critical
  else if name = "NOTSET" then some .notset
  else none

structure Line where
  level : Level
  logger : String
  message : String
  deriving DecidableEq, Repr

def Line.text (l : Line) : String := l.level.name ++ " " ++ l.logger ++ " " ++ l.message

end CatalogSearch.Logging
