import CatalogSearch.Catalog.Request
import CatalogSearch.Catalog.Search
import CatalogSearch.CommandLine.Options
import CatalogSearch.Config.Settings
import CatalogSearch.Database.Pool
import CatalogSearch.Logging.Configuration
import CatalogSearch.Value.Json

/-!
# The search command

The command reads a request, the settings, and only then opens a pool.  It runs one query on a
pooled connection and prints the rows as JSON.  The connection goes back and the pool is closed
whether the query succeeds or fails.
-/

set_option autoImplicit false

namespace CatalogSearch.Catalog

open Config Database Logging CommandLine Validation

abbrev Row : Type := List (String × Value)

def criteriaOption : OptionSpec := ⟨["--criteria"], .value⟩

def searchOptions : List OptionSpec := [helpOption, criteriaOption]

inductive SearchFailure where
  | usage (e : UsageError)
  | request (problems : List Problem)
  | settings (problems : List Problem)
  | logging (e : LevelError)
  | pool (e : PoolError)
  | query (e : Sql.SearchError)
  | database (message : String)

def SearchFailure.exitCode : SearchFailure → UInt32
  | usage _ => 2
  | request _ => 2
  | _ => 1

structure SearchRun where
  result : Except SearchFailure Unit
  events : List Event
  log : List Line
  output : String

def SearchRun.failed (e : SearchFailure) : SearchRun := ⟨.error e, [], [], ""⟩

def SearchRun.exitCode (run : SearchRun) : UInt32 :=
  match run.result with
  | .ok _ => 0
  | .error e => e.exitCode

def sessionOptions (s : Settings) : SessionOptions :=
  ⟨s.queryTimeout.map .int, s.schema.map .named⟩

def searchPool (s : Settings) : Except PoolError Pool :=
  createPool s.databaseUrl
    { PoolOptions.usual with maxSize := .int s.poolSize, session := sessionOptions s }

/-- The loggers of a search; the levels of settings are always known ones. -/
def searchLoggers (env : Environment) (s : Settings) : Except LevelError Unit × Loggers :=
  Logging.configure env (some s.logLevel.name) (s.criteriaLogLevel.map Level.name) .initial

def givenFields (values : List (String × Value)) : List String :=
  Value.sortedTexts ((values.filter fun field =>
    match field.2 with
    | .null => false
    | _ => true).map Prod.fst)

/-- What is reported of a search: its fields and the number of rows, never a value. -/
def searchLine (values : List (String × Value)) (rows : Nat) (latency : String) : Line :=
  ⟨.info, "src.catalog.service",
    "search entity=product filters=[" ++ joined ", " ((givenFields values).map Text.quoted) ++
      "] rows=" ++ toString rows ++ " latency_ms=" ++ latency⟩

def printed (rows : List Row) : String :=
  (Json.array (rows.map fun row => .object (Value.jsonEntries row))).indented 0 ++ "\n"

def queryRun (pool : Pool) (s : Sql.Select) : PoolRun :=
  pool.withConnection [.cursorOpened, .queried s.text s.parameters]

def whileOpen (pool : Pool) (body : List Event) : List Event :=
  pool.created :: .poolOpened true :: body ++ [.poolClosed]

structure SearchSetup where
  values : List (String × Value)
  settings : Settings
  loggers : Loggers
  pool : Pool

def answerSearch (s : SearchSetup) (answer : Except String (List Row)) (latency : String)
    (criteriaLog : List Line) (select : Sql.Select) : SearchRun :=
  let run := queryRun s.pool select
  let events := whileOpen s.pool run.events
  match run.result, answer with
  | .error e, _ => ⟨.error (.pool (.session e)), events, criteriaLog, ""⟩
  | .ok _, .error message => ⟨.error (.database message), events, criteriaLog, ""⟩
  | .ok _, .ok rows =>
      ⟨.ok (), events,
        criteriaLog ++ written s.loggers.root [searchLine s.values rows.length latency],
        printed rows⟩

def runSearch (s : SearchSetup) (answer : Except String (List Row)) (latency : String) :
    SearchRun :=
  let built := productQuery s.values s.settings.eagerFetch
  let criteriaLog := written s.loggers.criteriaThreshold (built.log.map Criteria.LogRecord.line)
  match built.result with
  | .error e => ⟨.error (.query e), whileOpen s.pool [], criteriaLog, ""⟩
  | .ok select => answerSearch s answer latency criteriaLog select

def requestOf (occurrences : List Occurrence) : Checked (List (String × Value)) :=
  match lastValue? criteriaOption occurrences with
  | none => readRequest "\x7b\x7d"
  | some (.text s) => readRequest s
  | some .nothing => .error [⟨[], .notJson⟩]

/-- Everything a search needs; nothing is done to a database for it. -/
def prepareSearch (env : Environment) (file : Option String) (occurrences : List Occurrence) :
    Except SearchFailure SearchSetup := do
  let values ← (requestOf occurrences).mapError .request
  let settings ← (Settings.load env file).mapError .settings
  let (configured, loggers) := searchLoggers env settings
  configured.mapError .logging
  let pool ← (searchPool settings).mapError .pool
  return ⟨values, settings, loggers, pool⟩

/-- The command with its arguments; `none` if only help was asked for. -/
def searchCommand (env : Environment) (file : Option String) (arguments : List String)
    (answer : Except String (List Row)) (latency : String) : Option SearchRun :=
  match parse searchOptions arguments with
  | .error e => some (.failed (.usage e))
  | .ok .help => none
  | .ok (.options occurrences) =>
      match prepareSearch env file occurrences with
      | .error e => some (.failed e)
      | .ok setup => some (runSearch setup answer latency)

end CatalogSearch.Catalog
