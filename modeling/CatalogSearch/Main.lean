import CatalogSearch.Catalog.Command
import CatalogSearch.Database.Migration

/-!
# The program

`search` answers a request and `migrate` applies the scripts of the catalog.  The database is at the
other end of the standard streams: the rows of the search, or the names of the scripts that were
applied before, come in as a JSON list, and the statements go out, for a search on the error stream,
where log lines and failures go too.
-/

set_option autoImplicit false

namespace CatalogSearch

open Config Database

def variableNames : List String :=
  ["DATABASE_URL", "DB_TIMEZONE", "DB_SCHEMA", "DB_POOL_MAX_SIZE", "QUERY_TIMEOUT_MS",
    "EAGER_FETCH_ENABLED", "LOG_LEVEL", "CRITERIA_LOG_LEVEL"]

def readEnvironment : IO Environment := do
  let values ← variableNames.mapM fun name => do
    let value ← IO.getEnv name
    return value.map fun text => (name, text)
  return ⟨values.filterMap id⟩

def readFile? (name : String) : IO (Option String) :=
  try
    let text ← IO.FS.readFile name
    return some text
  catch _ => return none

def readList : IO (Except String (List Json)) := do
  let input ← IO.getStdin
  let text ← input.readToEnd
  if Text.isBlank text then return .ok []
  match (Json.ofText? text.length text).bind Json.items? with
  | some items => return .ok items
  | none => return .error "the answer of the database is no JSON list"

def rowOf (j : Json) : Catalog.Row := Value.ofJsonMembers (j.members?.getD [])

def problemText (p : Validation.Problem) : String :=
  let place := p.place.map fun
    | .key name => name
    | .index n => toString n
  match p.kind with
  | .refused reason => joined "." place ++ ": " ++ reason
  | kind => joined "." place ++ ": " ++ kind.name

def complain (lines : List String) : IO Unit := lines.forM IO.eprintln

def usageText : CommandLine.UsageError → String
  | .ambiguous argument => "ambiguous option: " ++ argument
  | .missingValue option => "argument " ++ option ++ ": expected one argument"
  | .unexpectedValue option => "argument " ++ option ++ ": takes no value"
  | .unrecognized arguments => "unrecognized arguments: " ++ joined " " arguments

def failureLines : Catalog.SearchFailure → List String
  | .usage e => [usageText e]
  | .request problems => "invalid criteria:" :: problems.map problemText
  | .settings problems => "Invalid environment configuration:" :: problems.map problemText
  | .logging e => [e.message]
  | .pool e => [e.message]
  | .query e => [e.message]
  | .database message => [message]

def connectText : ConnectError ServerError → String
  | .session e => e.message
  | .database e => e.message

def reportMigration : MigrationError ServerError → IO UInt32
  | .environment e => do
      complain [e.message]
      return 1
  | .usage e => do
      complain [usageText e]
      return 2
  | .logging e => do
      complain [e.message]
      return 1
  | .url e => do
      complain [e.message]
      return 1
  | .scripts e => do
      complain [e.message "."]
      return 1
  | .connection e => do
      complain [connectText e]
      return 1

def search (arguments : List String) : IO UInt32 := do
  let env ← readEnvironment
  let file ← readFile? ".env"
  let started ← IO.monoMsNow
  let answer ← readList
  let finished ← IO.monoMsNow
  let rows := answer.map fun items => items.map rowOf
  match Catalog.searchCommand env file arguments rows (toString (finished - started)) with
  | none =>
      IO.println "search [--criteria CRITERIA]"
      return 0
  | some run =>
      complain (run.events.filterMap Event.statement?)
      complain (run.log.map Logging.Line.text)
      IO.print run.output
      match run.result with
      | .ok _ => pure ()
      | .error e => complain (failureLines e)
      return run.exitCode

def migrateCatalog (arguments : List String) : IO UInt32 := do
  let env ← readEnvironment
  let file ← readFile? ".env"
  match ← readList with
  | .error message =>
      complain [message]
      return 1
  | .ok names =>
      let start := Server.ofApplied (names.filterMap Json.text?) none
      match migrationCommand server env file (some catalogScripts) arguments start with
      | none =>
          IO.println "migrate [--recreate] [--schema SCHEMA]"
          return 0
      | some run =>
          (run.state.events.filterMap Event.statement?).forM IO.println
          complain (run.log.map Logging.Line.text)
          match run.result with
          | .ok _ => return 0
          | .error e => reportMigration e

end CatalogSearch

def main (arguments : List String) : IO UInt32 :=
  match arguments with
  | "search" :: rest => CatalogSearch.search rest
  | "migrate" :: rest => CatalogSearch.migrateCatalog rest
  | _ => do
      IO.eprintln "search or migrate"
      return 2
