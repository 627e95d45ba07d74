import CatalogSearch.Config.Environment
import CatalogSearch.Logging.Level
import CatalogSearch.Text.Identifier
import CatalogSearch.Text.Lowercase
import CatalogSearch.Text.Uppercase
import CatalogSearch.Validation.Integer

/-!
# Settings

The settings of the search application, read from the environment and, where that has no variable,
from an environment file.  Names match whatever their case; of names that differ only in case the
last one counts.  All problems are reported together, in the order of the settings.
-/

set_option autoImplicit false

namespace CatalogSearch.Config

open Validation Logging

structure Settings where
  databaseUrl : String
  timezone : String
  schema : Option String
  poolSize : Int
  queryTimeout : Option Int
  eagerFetch : Bool
  logLevel : Level
  criteriaLogLevel : Option Level
  deriving DecidableEq, Repr

/-- The last value under a name in small letters; the last entry counts even if it has no value. -/
def valueOf? (name : String) (entries : List (String × Option String)) : Option String :=
  ((entries.map fun (key, value) => (Text.lower key, value)).reverse.lookup (Text.lower name)).join

structure Source where
  env : List (String × Option String)
  file : List (String × Option String)

/-- What a variable means within a file: what the file says before, or else what the process says. -/
def findInFile (env : Environment) (known : List (String × Option String)) (name : String) :
    Option (Option String) :=
  (known.lookup name).or ((env.get? name).map some)

def fileEntries (env : Environment) (text : String) : List (String × Option String) :=
  DotEnv.resolve (findInFile env) ((DotEnv.ofText text).filterMap DotEnv.Item.binding?)

def Source.of (env : Environment) (file : Option String) : Source :=
  ⟨env.entries.map fun (key, value) => (key, some value), (file.map (fileEntries env)).getD []⟩

def Source.get? (s : Source) (name : String) : Option String :=
  (valueOf? name s.env).or (valueOf? name s.file)

def readPositive (text : String) : Except ProblemKind Int :=
  match integerOfText text with
  | .ok n => if 0 < n then .ok n else .error .notGreater
  | .error kind => .error kind

def asciiLower (s : String) : String := String.ofList (s.toList.map Number.Decimal.asciiLower)

def readBool (text : String) : Except ProblemKind Bool :=
  if ["1", "true", "t", "yes", "y", "on"].contains (asciiLower text) then .ok true
  else if ["0", "false", "f", "no", "n", "off"].contains (asciiLower text) then .ok false
  else .error .boolText

def readTimezone (text : String) : Except ProblemKind String :=
  if Text.upper text = "UTC" then .ok "UTC" else .error (.refused "DB_TIMEZONE must be UTC")

def readSchema (text : String) : Except ProblemKind String :=
  if Text.isSchemaName text then .ok text else .error (.refused ("Invalid DB_SCHEMA: " ++ text))

def settingLevel? (name : String) : Option Level :=
  [Level.debug, .info, .warning, .error, .critical].find? (·.name = name)

def readLevel (text : String) : Except ProblemKind Level :=
  match settingLevel? (Text.upper text) with
  | some level => .ok level
  | none => .error (.refused ("Unsupported log level: " ++ text))

variable {α : Type}

def Source.optional (s : Source) (name : String) (read : String → Except ProblemKind α) :
    Checked (Option α) :=
  match s.get? name with
  | none => .ok none
  | some text => placed [.key name] ((read text).map some)

def Source.orElse (s : Source) (name : String) (read : String → Except ProblemKind α) (usual : α) :
    Checked α :=
  (s.optional name read).map fun value => value.getD usual

def Source.required (s : Source) (name : String) : Checked String :=
  match s.get? name with
  | some text => .ok text
  | none => .error [⟨[.key name], .missing⟩]

def Settings.ofSource (s : Source) : Checked Settings :=
  (both (s.required "DATABASE_URL")
    (both (s.orElse "DB_TIMEZONE" readTimezone "UTC")
      (both (s.optional "DB_SCHEMA" readSchema)
        (both (s.orElse "DB_POOL_MAX_SIZE" readPositive 10)
          (both (s.optional "QUERY_TIMEOUT_MS" readPositive)
            (both (s.orElse "EAGER_FETCH_ENABLED" readBool true)
              (both (s.orElse "LOG_LEVEL" readLevel .info)
                (s.optional "CRITERIA_LOG_LEVEL" readLevel)))))))).map
    fun (url, timezone, schema, poolSize, timeout, eager, level, criteriaLevel) =>
      ⟨url, timezone, schema, poolSize, timeout, eager, level, criteriaLevel⟩

def Settings.load (env : Environment) (file : Option String) : Checked Settings :=
  Settings.ofSource (.of env file)

end CatalogSearch.Config
