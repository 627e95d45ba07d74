import CatalogSearch.Config.Environment
import CatalogSearch.Logging.Level
import CatalogSearch.Text.Quoted
import CatalogSearch.Text.Uppercase

/-!
# Configuring the loggers

The root logger gets its handler and its level at the first configuration, and neither changes
afterwards; the handler is added before the level is looked up.  The loggers of the criteria have a
level of their own, zero meaning that of the root, and the pool's logger reports warnings only.
-/

set_option autoImplicit false

namespace CatalogSearch.Logging

open Config

inductive LevelError where
  | unknown (name : String)
  deriving DecidableEq, Repr

def LevelError.message : LevelError → String
  | unknown name => "Unknown level: " ++ Text.quoted name

structure Loggers where
  root : Nat
  criteria : Nat
  pool : Nat
  formats : List String
  deriving DecidableEq, Repr

def lineFormat : String := "%(asctime)s %(levelname)s %(name)s %(message)s"

def Loggers.initial : Loggers := ⟨Level.warning.severity, 0, 0, []⟩

def Loggers.criteriaThreshold (l : Loggers) : Nat := if l.criteria = 0 then l.root else l.criteria

def severityOf (name : String) : Except LevelError Nat :=
  match Level.named? name with
  | some level => .ok level.severity
  | none => .error (.unknown name)

def rootLevelName (env : Environment) (level : Option String) : String :=
  let given (s : Option String) : Option String := s.filter (· ≠ "")
  Text.upper (((given level).or (given (env.get? "LOG_LEVEL"))).getD "INFO")

def configureRoot (name : String) (l : Loggers) : Except LevelError Unit × Loggers :=
  if l.formats.isEmpty then
    let l := { l with formats := [lineFormat] }
    match severityOf name with
    | .ok severity => (.ok (), { l with root := severity })
    | .error e => (.error e, l)
  else (.ok (), l)

def configureCriteria (level : Option String) (l : Loggers) : Except LevelError Unit × Loggers :=
  match level with
  | none => (.ok (), l)
  | some name =>
      match severityOf (Text.upper name) with
      | .ok severity => (.ok (), { l with criteria := severity })
      | .error e => (.error e, l)

def configure (env : Environment) (level criteriaLevel : Option String) (l : Loggers) :
    Except LevelError Unit × Loggers :=
  match configureRoot (rootLevelName env level) l with
  | (.error e, l) => (.error e, l)
  | (.ok _, l) =>
      match configureCriteria criteriaLevel l with
      | (.error e, l) => (.error e, l)
      | (.ok _, l) => (.ok (), { l with pool := Level.warning.severity })

def written (threshold : Nat) (lines : List Line) : List Line :=
  lines.filter fun line => threshold ≤ line.level.severity

end CatalogSearch.Logging
