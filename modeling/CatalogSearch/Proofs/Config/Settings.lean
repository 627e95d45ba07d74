import CatalogSearch.Config.Settings
import CatalogSearch.Proofs.Call
import CatalogSearch.Proofs.Validation.Integer

/-!
# Where settings come from

Main statement: `ofSource_eq_ok`.  Settings are accepted exactly if every setting is what its text is
read as, or its usual value where the source has no text for it.  The problems of a source are those
of its settings (`problemsOf_ofSource`), each of which is told from the text of that setting alone.
-/

set_option autoImplicit false

namespace CatalogSearch.Validation

variable {α β : Type}

theorem both_eq_ok {a : Checked α} {b : Checked β} {x : α} {y : β} :
    both a b = .ok (x, y) ↔ a = .ok x ∧ b = .ok y := by
  cases a <;> cases b <;> simp [both]

theorem placed_eq_ok {place : List Step} {c : Except ProblemKind α} {a : α} :
    placed place c = .ok a ↔ c = .ok a := by
  cases c <;> simp [placed]

def problemsOf : Checked α → List Problem
  | .ok _ => []
  | .error problems => problems

@[simp]
theorem problemsOf_both (a : Checked α) (b : Checked β) :
    problemsOf (both a b) = problemsOf a ++ problemsOf b := by
  cases a <;> cases b <;> simp [both, problemsOf]

@[simp]
theorem problemsOf_map (f : α → β) (c : Checked α) : problemsOf (c.map f) = problemsOf c := by
  cases c <;> rfl

end CatalogSearch.Validation

namespace CatalogSearch.Config

open Validation Logging

variable {α : Type}

/-- The value of a setting that may be missing. -/
inductive Source.Reads (src : Source) (name : String) (read : String → Except ProblemKind α) :
    Option α → Prop where
  | missing : src.get? name = none → Reads src name read none
  | given {text : String} {a : α} : src.get? name = some text → read text = .ok a →
      Reads src name read (some a)

theorem optional_eq_ok {src : Source} {name : String} {read : String → Except ProblemKind α}
    {value : Option α} : src.optional name read = .ok value ↔ src.Reads name read value := by
  unfold Source.optional
  constructor
  · intro h
    split at h
    · next missing =>
        rw [← Except.ok.inj h]
        exact .missing missing
    · next text found =>
        obtain ⟨a, ha, rfl⟩ := except_map_eq_ok.mp (placed_eq_ok.mp h)
        exact .given found ha
  · intro h
    cases h with
    | missing missing => rw [missing]
    | given found ha => simp only [found, ha, Except.map, placed]

theorem orElse_eq_ok {src : Source} {name : String} {read : String → Except ProblemKind α}
    {usual a : α} : src.orElse name read usual = .ok a ↔
      ∃ value, src.Reads name read value ∧ value.getD usual = a := by
  unfold Source.orElse
  rw [except_map_eq_ok]
  simp only [optional_eq_ok]

theorem required_eq_ok {src : Source} {name text : String} :
    src.required name = .ok text ↔ src.get? name = some text := by
  unfold Source.required
  cases src.get? name <;> simp

structure Settings.ReadFrom (s : Settings) (src : Source) : Prop where
  databaseUrl : src.get? "DATABASE_URL" = some s.databaseUrl
  timezone : ∃ value, src.Reads "DB_TIMEZONE" readTimezone value ∧ value.getD "UTC" = s.timezone
  schema : src.Reads "DB_SCHEMA" readSchema s.schema
  poolSize : ∃ value, src.Reads "DB_POOL_MAX_SIZE" readPositive value ∧ value.getD 10 = s.poolSize
  queryTimeout : src.Reads "QUERY_TIMEOUT_MS" readPositive s.queryTimeout
  eagerFetch : ∃ value, src.Reads "EAGER_FETCH_ENABLED" readBool value ∧
    value.getD true = s.eagerFetch
  logLevel : ∃ value, src.Reads "LOG_LEVEL" readLevel value ∧ value.getD .info = s.logLevel
  criteriaLogLevel : src.Reads "CRITERIA_LOG_LEVEL" readLevel s.criteriaLogLevel

theorem ofSource_eq_ok {src : Source} {s : Settings} :
    Settings.ofSource src = .ok s ↔ s.ReadFrom src := by
  unfold Settings.ofSource
  rw [except_map_eq_ok]
  constructor
  · rintro ⟨⟨url, timezone, schema, size, timeout, eager, level, criteriaLevel⟩, read, rfl⟩
    simp only [both_eq_ok, required_eq_ok, optional_eq_ok, orElse_eq_ok] at read
    obtain ⟨hurl, hzone, hschema, hsize, htimeout, heager, hlevel, hcriteria⟩ := read
    exact ⟨hurl, hzone, hschema, hsize, htimeout, heager, hlevel, hcriteria⟩
  · intro h
    refine ⟨(s.databaseUrl, s.timezone, s.schema, s.poolSize, s.queryTimeout, s.eagerFetch,
      s.logLevel, s.criteriaLogLevel), ?_, rfl⟩
    simp only [both_eq_ok, required_eq_ok, optional_eq_ok, orElse_eq_ok]
    exact ⟨h.databaseUrl, h.timezone, h.schema, h.poolSize, h.queryTimeout, h.eagerFetch,
      h.logLevel, h.criteriaLogLevel⟩

/-! ## Problems -/

theorem problemsOf_ofSource (src : Source) :
    problemsOf (Settings.ofSource src) =
      problemsOf (src.required "DATABASE_URL") ++
      (problemsOf (src.optional "DB_TIMEZONE" readTimezone) ++
      (problemsOf (src.optional "DB_SCHEMA" readSchema) ++
      (problemsOf (src.optional "DB_POOL_MAX_SIZE" readPositive) ++
      (problemsOf (src.optional "QUERY_TIMEOUT_MS" readPositive) ++
      (problemsOf (src.optional "EAGER_FETCH_ENABLED" readBool) ++
      (problemsOf (src.optional "LOG_LEVEL" readLevel) ++
      problemsOf (src.optional "CRITERIA_LOG_LEVEL" readLevel))))))) := by
  simp only [Settings.ofSource, Source.orElse, problemsOf_map, problemsOf_both]

theorem place_of_mem_required {src : Source} {name : String} {p : Problem}
    (h : p ∈ problemsOf (src.required name)) : p.place = [.key name] := by
  unfold Source.required at h
  split at h
  · cases h
  · rw [List.mem_singleton.mp h]

theorem place_of_mem_optional {src : Source} {name : String} {read : String → Except ProblemKind α}
    {p : Problem} (h : p ∈ problemsOf (src.optional name read)) : p.place = [.key name] := by
  unfold Source.optional at h
  split at h
  · cases h
  · next text _ =>
      cases ha : read text with
      | ok a =>
          rw [ha] at h
          cases h
      | error kind =>
          rw [ha] at h
          rw [List.mem_singleton.mp h]

theorem problemsOf_optional_eq_nil {src : Source} {name : String}
    {read : String → Except ProblemKind α} :
    problemsOf (src.optional name read) = [] ↔ ∃ value, src.Reads name read value := by
  constructor
  · intro none
    cases found : src.get? name with
    | none => exact ⟨_, .missing found⟩
    | some text =>
        simp only [Source.optional, found] at none
        cases ha : read text with
        | ok a => exact ⟨_, .given found ha⟩
        | error kind =>
            rw [ha] at none
            cases none
  · rintro ⟨value, reads⟩
    rw [optional_eq_ok.mpr reads]
    rfl

/-- A source whose settings have a problem with the variable. -/
def Source.Refuses (src : Source) (name : String) : Prop :=
  ∃ p ∈ problemsOf (Settings.ofSource src), p.place = [.key name]

/-! ## What an accepted text says -/

theorem readTimezone_eq_ok {text zone : String} (h : readTimezone text = .ok zone) :
    zone = "UTC" := by
  unfold readTimezone at h
  split at h
  · exact (Except.ok.inj h).symm
  · cases h

theorem readSchema_eq_ok {text name : String} :
    readSchema text = .ok name ↔ Text.isSchemaName text = true ∧ text = name := by
  unfold readSchema
  split <;> simp_all

theorem readPositive_eq_ok {text : String} {n : Int} :
    readPositive text = .ok n ↔ integerOfText text = .ok n ∧ 0 < n := by
  unfold readPositive
  cases integerOfText text with
  | error kind => simp
  | ok m =>
      by_cases positive : 0 < m
      · simp only [if_pos positive, Except.ok.injEq]
        constructor
        · intro h
          subst h
          exact ⟨rfl, positive⟩
        · exact fun h => h.1
      · simp only [if_neg positive, reduceCtorEq, Except.ok.injEq, false_iff, not_and]
        intro h
        subst h
        exact positive

def settingLevelNames : List String := ["DEBUG", "INFO", "WARNING", "ERROR", "CRITICAL"]

theorem readLevel_eq_ok {text : String} {level : Level} (h : readLevel text = .ok level) :
    level.name = Text.upper text ∧ level.name ∈ settingLevelNames := by
  unfold readLevel settingLevel? at h
  split at h
  · next found hfound =>
      rw [← Except.ok.inj h]
      refine ⟨by simpa using List.find?_some hfound, ?_⟩
      exact List.mem_map_of_mem (f := Level.name) (List.mem_of_find?_eq_some hfound)
  · cases h

namespace Settings.ReadFrom

variable {s : Settings} {src : Source} (h : s.ReadFrom src)

include h

theorem timezone_eq : s.timezone = "UTC" := by
  obtain ⟨value, read, hvalue⟩ := h.timezone
  cases read with
  | missing _ => exact hvalue.symm
  | given _ ok => rw [← hvalue, Option.getD_some, readTimezone_eq_ok ok]

theorem schema_eq : src.get? "DB_SCHEMA" = s.schema := by
  have read := h.schema
  generalize s.schema = value at read ⊢
  cases read with
  | missing missing => exact missing
  | given found ok => rw [found, (readSchema_eq_ok.mp ok).2]

theorem isSchemaName {name : String} (named : s.schema = some name) :
    Text.isSchemaName name = true := by
  have read := h.schema
  rw [named] at read
  cases read with
  | given _ ok =>
      obtain ⟨valid, rfl⟩ := readSchema_eq_ok.mp ok
      exact valid

theorem poolSize_pos : 0 < s.poolSize := by
  obtain ⟨value, read, hvalue⟩ := h.poolSize
  rw [← hvalue]
  cases read with
  | missing _ => decide
  | given _ ok => exact (readPositive_eq_ok.mp ok).2

theorem queryTimeout_pos {n : Int} (hn : s.queryTimeout = some n) : 0 < n := by
  have read := h.queryTimeout
  rw [hn] at read
  cases read with
  | given _ ok => exact (readPositive_eq_ok.mp ok).2

theorem queryTimeout_reads : src.Reads "QUERY_TIMEOUT_MS" integerOfText s.queryTimeout := by
  have read := h.queryTimeout
  generalize s.queryTimeout = value at read ⊢
  cases read with
  | missing missing => exact .missing missing
  | given found ok => exact .given found (readPositive_eq_ok.mp ok).1

theorem natAbs_queryTimeout_lt {n : Int} (hn : s.queryTimeout = some n) :
    n.natAbs < Nat.pow 10 Json.digitLimit := by
  have read := h.queryTimeout_reads
  rw [hn] at read
  cases read with
  | given _ ok => exact natAbs_lt_of_integerOfText ok

theorem name_logLevel_mem : s.logLevel.name ∈ settingLevelNames := by
  obtain ⟨value, read, hvalue⟩ := h.logLevel
  rw [← hvalue]
  cases read with
  | missing _ => decide
  | given _ ok => exact (readLevel_eq_ok ok).2

theorem name_criteriaLogLevel_mem {level : Level} (hlevel : s.criteriaLogLevel = some level) :
    level.name ∈ settingLevelNames := by
  have read := h.criteriaLogLevel
  rw [hlevel] at read
  cases read with
  | given _ ok => exact (readLevel_eq_ok ok).2

end Settings.ReadFrom

end CatalogSearch.Config
