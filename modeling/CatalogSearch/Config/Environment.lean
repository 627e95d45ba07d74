import CatalogSearch.Config.DotEnv
import CatalogSearch.Logging.Level

/-!
# Environments

The variables of a process.  Loading an environment file adds the variables that are not set yet,
an empty one counting as set.  Values of the file may refer to variables of the process, and to
variables of the file where the process has none.
-/

set_option autoImplicit false

namespace CatalogSearch.Config

open Logging

structure Environment where
  entries : List (String × String)
  deriving DecidableEq, Repr

/-- Names and values that no process can have. -/
inductive LoadError where
  | nullCharacter
  | equalsInName
  deriving DecidableEq, Repr

def LoadError.message : LoadError → String
  | nullCharacter => "embedded null byte"
  | equalsInName => "illegal environment variable name"

namespace Environment

def get? (env : Environment) (name : String) : Option String := env.entries.lookup name

def set? (env : Environment) (name value : String) : Except LoadError Environment :=
  if name.toList.contains '\x00' || value.toList.contains '\x00' then .error .nullCharacter
  else if name.toList.contains '=' then .error .equalsInName
  else .ok ⟨env.entries ++ [(name, value)]⟩

def add? (env : Environment) (binding : String × Option String) : Except LoadError Environment :=
  match env.get? binding.1, binding.2 with
  | none, some value => env.set? binding.1 value
  | _, _ => .ok env

/-- What a variable means within a file: what the process says, or else what the file says. -/
def find (env : Environment) (known : List (String × Option String)) (name : String) :
    Option (Option String) :=
  match env.get? name with
  | some value => some (some value)
  | none => known.lookup name

def fileBindings (env : Environment) (text : String) : List (String × Option String) :=
  DotEnv.resolve env.find ((DotEnv.ofText text).filterMap DotEnv.Item.binding?)

/-- The environment after loading a file; a missing file changes nothing. -/
def load? (env : Environment) (file : Option String) : Except LoadError Environment :=
  match file with
  | none => .ok env
  | some text => (env.fileBindings text).foldlM add? env

end Environment

def loadLog (file : Option String) : List Line :=
  match file with
  | none => []
  | some text => ((DotEnv.ofText text).filterMap DotEnv.Item.unreadableLine?).map fun line =>
      ⟨.warning, "dotenv.main",
        "python-dotenv could not parse statement starting at line " ++ toString line⟩

inductive UrlError where
  | missing
  deriving DecidableEq, Repr

def UrlError.message : UrlError → String
  | missing => "DATABASE_URL is required (set it in .env or environment)"

def requireUrl (env : Environment) : Except UrlError String :=
  match env.get? "DATABASE_URL" with
  | some url => if url = "" then .error .missing else .ok url
  | none => .error .missing

end CatalogSearch.Config
