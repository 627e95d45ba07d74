import CatalogSearch.CommandLine.Options
import CatalogSearch.Database.Connection
import CatalogSearch.Database.Scripts
import CatalogSearch.Logging.Configuration

/-!
# Migrations

A run connects, drops all tables first if asked to, and applies every script whose name is not
recorded yet, in order and each in a transaction of its own together with its record.  The run ends
at the first failure.  The environment file is loaded before anything else, and read once more when
the loggers are configured, so that lines of it that cannot be read are logged.
-/

set_option autoImplicit false

namespace CatalogSearch.Database

open Config Logging CommandLine

variable {σ ε : Type}

/-- The tables of the catalog, those that refer to others first. -/
def catalogTables : List String := ["reviews", "products", "categories", "departments", "employees"]

def dropStatements : List Statement :=
  catalogTables.map .dropTable ++ [.dropTable ledgerTable]

def applyScript (d : Client σ ε) (script : Script) : Call σ ε Unit :=
  d.transaction
    (Call.bind (d.execute (.script script.text)) fun _ =>
      Call.bind (d.execute (.insertApplied script.name)) fun _ => Call.pure ())

structure MigrationRun (σ ε : Type) where
  result : Except ε Unit
  state : σ
  newly : List String

def applyScripts (d : Client σ ε) (applied : List String) : List Script → σ → MigrationRun σ ε
  | [], s => ⟨.ok (), s, []⟩
  | script :: rest, s =>
      if applied.contains script.name then applyScripts d applied rest s
      else
        match applyScript d script s with
        | (.error e, s) => ⟨.error e, s, []⟩
        | (.ok _, s) =>
            let run := applyScripts d applied rest s
            { run with newly := script.name :: run.newly }

/-- The tables are dropped if asked to, the record of migrations is created if it is missing, and
its names are read. -/
def prepareLedger (d : Client σ ε) (recreate : Bool) : Call σ ε (List String) :=
  Call.bind (d.executeAll (if recreate then dropStatements else [])) fun _ =>
    Call.bind (d.execute .createLedger) fun _ => d.execute .selectApplied

def migrateConnected (d : Client σ ε) (recreate : Bool) (scripts : List Script) (s : σ) :
    MigrationRun σ ε :=
  match prepareLedger d recreate s with
  | (.error e, s) => ⟨.error e, s, []⟩
  | (.ok applied, s) => applyScripts d applied scripts s

/-- The connection ends with the run, and what the run did counts only if it succeeded. -/
def concluded (d : Client σ ε) (run : MigrationRun σ ε) : MigrationRun σ ε :=
  match run.result with
  | .error e => ⟨.error e, d.abandon run.state, run.newly⟩
  | .ok _ =>
      let (ended, s) := d.finish run.state
      ⟨ended, s, run.newly⟩

def migrate (d : Client σ ε) (url : String) (schema : Option SchemaChoice) (recreate : Bool)
    (scripts : List Script) (s : σ) : MigrationRun σ (ConnectError ε) :=
  match d.connectSession url ⟨none, schema⟩ s with
  | (.error e, s) => ⟨.error e, s, []⟩
  | (.ok _, s) =>
      let run := concluded d (migrateConnected d recreate scripts s)
      ⟨run.result.mapError .database, run.state, run.newly⟩

inductive MigrationError (ε : Type) where
  | environment (e : LoadError)
  | usage (e : UsageError)
  | logging (e : LevelError)
  | url (e : UrlError)
  | scripts (e : ScriptsError)
  | connection (e : ConnectError ε)

def recreateOption : OptionSpec := ⟨["--recreate"], .flag⟩

def schemaOption : OptionSpec := ⟨["--schema"], .value⟩

def migrationOptions : List OptionSpec := [helpOption, recreateOption, schemaOption]

def appliedLine (name : String) : Line :=
  ⟨.info, "src.db.migrate", "applied migration=" ++ name⟩

structure CommandRun (σ ε : Type) where
  result : Except (MigrationError ε) Unit
  state : σ
  log : List Line

structure MigrationSetup where
  url : String
  scripts : List Script

def prepareMigration (env : Environment) (directory : Option (List DirectoryEntry)) :
    Except (MigrationError ε) MigrationSetup := do
  let url ← (requireUrl env).mapError .url
  let scripts ← (scriptsIn directory).mapError .scripts
  return ⟨url, scripts⟩

def schemaOf (env : Environment) (occurrences : List Occurrence) : Option SchemaChoice :=
  match lastValue? schemaOption occurrences with
  | some (.text name) => some (.named name)
  | some .nothing => some .unnamed
  | none => (env.get? "DB_SCHEMA").map .named

def migrateIn (d : Client σ ε) (env : Environment) (directory : Option (List DirectoryEntry))
    (schema : Option SchemaChoice) (recreate : Bool) (s : σ) : CommandRun σ ε :=
  match prepareMigration env directory with
  | .error e => ⟨.error e, s, []⟩
  | .ok setup =>
      let run := migrate d setup.url schema recreate setup.scripts s
      ⟨run.result.mapError .connection, run.state, run.newly.map appliedLine⟩

def migrateParsed (d : Client σ ε) (env : Environment) (file : Option String)
    (directory : Option (List DirectoryEntry)) (occurrences : List Occurrence) (s : σ) :
    CommandRun σ ε :=
  match Logging.configure env none none .initial with
  | (.error e, _) => ⟨.error (.logging e), s, []⟩
  | (.ok _, loggers) =>
      let run :=
        migrateIn d env directory (schemaOf env occurrences) (isGiven recreateOption occurrences) s
      { run with log := written loggers.root (loadLog file ++ run.log) }

/-- The command with its arguments, in an environment that the environment file adds to; `none` if
only help was asked for. -/
def migrationCommand (d : Client σ ε) (env : Environment) (file : Option String)
    (directory : Option (List DirectoryEntry)) (arguments : List String) (s : σ) :
    Option (CommandRun σ ε) :=
  match env.load? file with
  | .error e => some ⟨.error (.environment e), s, []⟩
  | .ok env =>
      match parse migrationOptions arguments with
      | .error e => some ⟨.error (.usage e), s, []⟩
      | .ok .help => none
      | .ok (.options occurrences) =>
          some (migrateParsed d env file directory occurrences s)

end CatalogSearch.Database
