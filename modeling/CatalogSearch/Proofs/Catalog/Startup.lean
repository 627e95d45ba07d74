import CatalogSearch.Catalog.Command
import CatalogSearch.Proofs.Config.Settings
import CatalogSearch.Proofs.Database.Sessions
import CatalogSearch.Proofs.Logging.Configuration

/-!
# What accepted settings lead to

Main statement: `accepted_settings_start`.  Once the settings are accepted nothing that they decide
can fail any more: not the loggers, not the pool, and not the configuration of its connections.

The pool is a library's, and the constructor of it a parameter.
-/

set_option autoImplicit false

namespace CatalogSearch.Catalog

open Config Database Logging

theorem literalLimit_eq : literalLimit = Json.digitLimit := rfl

theorem searchPool_of_readFrom {s : Settings} {src : Source} (h : s.ReadFrom src) :
    ∃ pool, searchPool s = .ok pool ∧
      pool.settings = ⟨s.databaseUrl, .int 1, .int s.poolSize, PoolOptions.usual.timeout⟩ ∧
      pool.configured =
        ⟨.ok (), (sessionTexts s.queryTimeout s.schema).map .executed ++ [.committed]⟩ := by
  refine createPool_of_valid rfl (fun _ => h.queryTimeout_pos) ?_ fun _ => h.isSchemaName
  intro n hn
  rw [literalLimit_eq]
  exact h.natAbs_queryTimeout_lt hn

def startPool {ε : Type} (construct : PoolSettings → Except ε Unit) (s : Settings) :
    Except (PoolError ⊕ ε) Pool := do
  let pool ← (searchPool s).mapError .inl
  (construct pool.settings).mapError .inr
  return pool

/-- A pool with one connection at least can be made exactly if it may have one. -/
def MakesPools {ε : Type} (construct : PoolSettings → Except ε Unit) : Prop :=
  ∀ (p : PoolSettings) (n : Int), p.minSize = .int 1 → p.maxSize = .int n →
    (construct p = .ok () ↔ 1 ≤ n)

theorem startPool_of_readFrom {ε : Type} {construct : PoolSettings → Except ε Unit}
    (makes : MakesPools construct) {s : Settings} {src : Source} (h : s.ReadFrom src) :
    ∃ pool, startPool construct s = .ok pool ∧
      pool.configured =
        ⟨.ok (), (sessionTexts s.queryTimeout s.schema).map .executed ++ [.committed]⟩ := by
  obtain ⟨pool, made, settings, configured⟩ := searchPool_of_readFrom h
  have constructed : construct pool.settings = .ok () := by
    refine (makes pool.settings s.poolSize ?_ ?_).mpr h.poolSize_pos
    · rw [settings]
    · rw [settings]
  refine ⟨pool, ?_, configured⟩
  unfold startPool
  rw [made]
  simp only [Except.mapError, bind, Except.bind, constructed]
  rfl

/-- What follows from the acceptance of settings.  `started` is the pool of the application, or why
there is none. -/
structure StartsWell (s : Settings) (src : Source) {ε : Type} (started : Except ε Pool) : Prop where
  timezone : s.timezone = "UTC"
  logLevel : s.logLevel.name ∈ settingLevelNames
  criteriaLogLevel : ∀ level, s.criteriaLogLevel = some level → level.name ∈ settingLevelNames
  timeout : src.Reads "QUERY_TIMEOUT_MS" Validation.integerOfText s.queryTimeout
  schema : src.get? "DB_SCHEMA" = s.schema
  loggers : ∀ (env : Environment) (l : Loggers),
    (configure env (some s.logLevel.name) (s.criteriaLogLevel.map Level.name) l).1 = .ok ()
  pool : ∃ pool, started = .ok pool ∧
    pool.configured =
      ⟨.ok (), (sessionTexts s.queryTimeout s.schema).map .executed ++ [.committed]⟩

theorem accepted_settings_start {ε : Type} {construct : PoolSettings → Except ε Unit}
    (makes : MakesPools construct) {env : Environment} {file : Option String} {s : Settings}
    (accepted : Settings.load env file = .ok s) :
    StartsWell s (.of env file) (startPool construct s) := by
  have h : s.ReadFrom (.of env file) := ofSource_eq_ok.mp accepted
  exact {
    timezone := h.timezone_eq
    logLevel := h.name_logLevel_mem
    criteriaLogLevel := fun _ => h.name_criteriaLogLevel_mem
    timeout := h.queryTimeout_reads
    schema := h.schema_eq
    loggers := fun env l => configure_names env s.logLevel s.criteriaLogLevel l
    pool := startPool_of_readFrom makes h }

/-- The timeout is given in the environment and in the file; one level is written with a dotless
letter, which has the capital of the dotted one. -/
def sampleEnvironment : Environment :=
  ⟨[("DATABASE_URL", "postgresql://localhost/catalog"), ("QUERY_TIMEOUT_MS", "+0250"),
    ("log_level", "warnıng")]⟩

def sampleFile : String := "DB_SCHEMA=catalog\nQUERY_TIMEOUT_MS=0\nCRITERIA_LOG_LEVEL=\"debug\"\n"

def sampleSettings : Settings :=
  ⟨"postgresql://localhost/catalog", "UTC", some "catalog", 10, some 250, true, .warning,
    some .debug⟩

def constructPool : PoolSettings → Except String Unit
  | ⟨_, .int least, .int most, _⟩ =>
      if least ≤ most then .ok () else .error "max_size must be greater or equal than min_size"
  | _ => .ok ()

theorem makesPools_constructPool : MakesPools constructPool := by
  intro p n least most
  obtain ⟨url, minSize, maxSize, timeout⟩ := p
  subst least most
  unfold constructPool
  split <;> simp_all

theorem accepted_settings_start_sample :
    StartsWell sampleSettings (.of sampleEnvironment (some sampleFile))
      (startPool constructPool sampleSettings) :=
  accepted_settings_start makesPools_constructPool rfl

end CatalogSearch.Catalog
