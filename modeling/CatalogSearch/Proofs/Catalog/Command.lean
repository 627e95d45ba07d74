import CatalogSearch.Proofs.Catalog.Resolution
import CatalogSearch.Proofs.Catalog.Startup

/-!
# The order of events in a search

Main statement: `search_command_protocol`.  A command looks at its arguments first, then at the
settings, and only then touches the database: its pool is opened, one connection is configured and
queried once, and the pool is closed in any case.
-/

set_option autoImplicit false

namespace CatalogSearch.Catalog

open Config Database Logging CommandLine Validation

def Requests (arguments : List String) (values : List (String × Value)) : Prop :=
  ∃ occurrences, parse searchOptions arguments = .ok (.options occurrences) ∧
    requestOf occurrences = .ok values

/-- The arguments cannot be read, or the request in them cannot. -/
inductive Refuses (arguments : List String) : SearchFailure → Prop where
  | usage {e : UsageError} : parse searchOptions arguments = .error e →
      Refuses arguments (.usage e)
  | request {occurrences : List Occurrence} {problems : List Problem} :
      parse searchOptions arguments = .ok (.options occurrences) →
      requestOf occurrences = .error problems → Refuses arguments (.request problems)

/-- All that is done to the database for a search. -/
def searchEvents (s : Settings) (select : Sql.Select) : List Event :=
  [.poolCreated ⟨s.databaseUrl, .int 1, .int s.poolSize, PoolOptions.usual.timeout⟩,
      .poolOpened true, .acquired] ++
    (sessionTexts s.queryTimeout s.schema).map .executed ++
    [.committed, .cursorOpened, .queried select.text select.parameters, .released, .poolClosed]

/-- What the answer of the database makes of a search. -/
def Answers (answer : Except String (List Row)) (run : SearchRun) : Prop :=
  match answer with
  | .error message => run.result = .error (.database message) ∧ run.output = ""
  | .ok rows => run.result = .ok () ∧ run.output = printed rows

inductive SearchOutcome (env : Environment) (file : Option String) (arguments : List String)
    (answer : Except String (List Row)) (run : SearchRun) : Prop where
  /-- Neither the settings nor the database have a part in this. -/
  | refused {e : SearchFailure} : Refuses arguments e → run.result = .error e →
      run.exitCode = 2 → run.events = [] → run.output = "" →
      (∀ env' file' answer' latency',
        searchCommand env' file' arguments answer' latency' = some run) →
      SearchOutcome env file arguments answer run
  | unsettled {values : List (String × Value)} {problems : List Problem} :
      Requests arguments values → Settings.load env file = .error problems →
      run.result = .error (.settings problems) → run.events = [] → run.output = "" →
      SearchOutcome env file arguments answer run
  | searched {values : List (String × Value)} {settings : Settings} {select : Sql.Select} :
      Requests arguments values → Settings.load env file = .ok settings →
      (productQuery values settings.eagerFetch).result = .ok select →
      run.events = searchEvents settings select → Answers answer run →
      SearchOutcome env file arguments answer run

theorem searchLoggers_fst (env : Environment) (s : Settings) :
    (searchLoggers env s).1 = .ok () :=
  configure_names env s.logLevel s.criteriaLogLevel .initial

theorem prepareSearch_of_readFrom {env : Environment} {file : Option String}
    {occurrences : List Occurrence} {values : List (String × Value)} {settings : Settings}
    (requested : requestOf occurrences = .ok values)
    (loaded : Settings.load env file = .ok settings) :
    ∃ setup, prepareSearch env file occurrences = .ok setup ∧ setup.values = values ∧
      setup.settings = settings ∧ searchPool settings = .ok setup.pool := by
  obtain ⟨pool, made, _⟩ := searchPool_of_readFrom (ofSource_eq_ok.mp loaded)
  refine ⟨⟨values, settings, (searchLoggers env settings).2, pool⟩, ?_, rfl, rfl, made⟩
  unfold prepareSearch
  simp only [requested, loaded, made, searchLoggers_fst, Except.mapError, bind, Except.bind]
  rfl

theorem runSearch_outcome {s : SearchSetup} {src : Source} (h : s.settings.ReadFrom src)
    (pooled : searchPool s.settings = .ok s.pool) {select : Sql.Select}
    (built : (productQuery s.values s.settings.eagerFetch).result = .ok select)
    (answer : Except String (List Row)) (latency : String) :
    (runSearch s answer latency).events = searchEvents s.settings select ∧
      Answers answer (runSearch s answer latency) := by
  obtain ⟨pool, made, settings, configured⟩ := searchPool_of_readFrom h
  have same : s.pool = pool := Except.ok.inj (pooled.symm.trans made)
  have queried : queryRun s.pool select = ⟨.ok (), .acquired ::
      ((sessionTexts s.settings.queryTimeout s.settings.schema).map .executed ++ [.committed]) ++
        [.cursorOpened, .queried select.text select.parameters] ++ [.released]⟩ := by
    rw [queryRun, Pool.withConnection, same, configured]
  have created : s.pool.created = .poolCreated ⟨s.settings.databaseUrl, .int 1,
      .int s.settings.poolSize, PoolOptions.usual.timeout⟩ := by
    rw [Pool.created, same, settings]
  unfold runSearch
  simp only [built]
  unfold answerSearch
  simp only [queried]
  cases answer with
  | error message =>
      refine ⟨?_, rfl, rfl⟩
      simp [whileOpen, searchEvents, created]
  | ok rows =>
      refine ⟨?_, rfl, rfl⟩
      simp [whileOpen, searchEvents, created]

theorem searchCommand_of_refuses {arguments : List String} {e : SearchFailure}
    (h : Refuses arguments e) (env : Environment) (file : Option String)
    (answer : Except String (List Row)) (latency : String) :
    searchCommand env file arguments answer latency = some (.failed e) := by
  unfold searchCommand
  cases h with
  | usage unreadable => rw [unreadable]
  | @request occurrences problems parsed refused =>
      have unprepared : prepareSearch env file occurrences = .error (.request problems) := by
        unfold prepareSearch
        rw [refused]
        rfl
      simp only [parsed, unprepared]

theorem exitCode_of_refuses {arguments : List String} {e : SearchFailure}
    (h : Refuses arguments e) : (SearchRun.failed e).exitCode = 2 := by
  cases h <;> rfl

theorem search_command_protocol (env : Environment) (file : Option String)
    (arguments : List String) (answer : Except String (List Row)) (latency : String) :
    match searchCommand env file arguments answer latency with
    | none => parse searchOptions arguments = .ok .help
    | some run => SearchOutcome env file arguments answer run := by
  have refusal : ∀ e, Refuses arguments e →
      SearchOutcome env file arguments answer (.failed e) := fun e h =>
    .refused h rfl (exitCode_of_refuses h) rfl rfl (searchCommand_of_refuses h)
  cases parsed : parse searchOptions arguments with
  | error e =>
      have refuses : Refuses arguments (.usage e) := .usage parsed
      rw [searchCommand_of_refuses refuses]
      exact refusal _ refuses
  | ok command =>
      cases command with
      | help => simp only [searchCommand, parsed]
      | options occurrences =>
          cases requested : requestOf occurrences with
          | error problems =>
              have refuses : Refuses arguments (.request problems) := .request parsed requested
              rw [searchCommand_of_refuses refuses]
              exact refusal _ refuses
          | ok values =>
              have requests : Requests arguments values := ⟨occurrences, parsed, requested⟩
              simp only [searchCommand, parsed]
              cases loaded : Settings.load env file with
              | error problems =>
                  have unprepared : prepareSearch env file occurrences =
                      .error (.settings problems) := by
                    unfold prepareSearch
                    rw [requested, loaded]
                    rfl
                  rw [unprepared]
                  exact .unsettled requests loaded rfl rfl rfl
              | ok settings =>
                  -- From here nothing but the database can fail.
                  obtain ⟨setup, prepared, rfl, rfl, pooled⟩ :=
                    prepareSearch_of_readFrom requested loaded
                  obtain ⟨select, built⟩ :=
                    exists_productQuery setup.values setup.settings.eagerFetch
                  obtain ⟨events, answers⟩ :=
                    runSearch_outcome (ofSource_eq_ok.mp loaded) pooled built answer latency
                  rw [prepared]
                  exact .searched requests loaded built events answers

end CatalogSearch.Catalog
