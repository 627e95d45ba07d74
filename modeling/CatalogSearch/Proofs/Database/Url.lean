import CatalogSearch.Database.Pool
import CatalogSearch.Proofs.Config.Environment
import CatalogSearch.Proofs.Config.Settings

/-!
# The database of searches and of migrations

A search takes its database from the settings, and a migration from the environment once the file
was loaded into it.  Both take what the process says, or else what the file says, but a migration
refuses an empty value.  Main statement: `same_database_iff`.  Both find the same value if the
variable is written in capitals wherever it stands, the file can be loaded, and the file says the
same to both readers; so it does if its value refers to no variable (`alike_of_not_refers`).
-/

set_option autoImplicit false

namespace CatalogSearch.Database

open Config Validation

/-- Of all settings at most the database has a problem. -/
def OthersValid (src : Source) : Prop :=
  ∀ p ∈ problemsOf (Settings.ofSource src), p.place = [.key "DATABASE_URL"]

def Searches (env : Environment) (file : Option String) (url : String) : Prop :=
  ∃ s, Settings.load env file = .ok s ∧ s.databaseUrl = url

def Migrates (env : Environment) (file : Option String) (url : String) : Prop :=
  usualUrl env file = .ok url

/-- Searches and migrations use one database, or both refuse to start. -/
def SameDatabase (env : Environment) (file : Option String) : Prop :=
  ∀ url, Searches env file url ↔ Migrates env file url

def loadedUrl (env : Environment) (file : Option String) : Option String :=
  match env.load? file with
  | .ok loaded => loaded.get? "DATABASE_URL"
  | .error _ => none

/-- The variable stands only in capitals, and the file can be loaded and says the same to both
readers where it counts. -/
structure PlainlyGiven (env : Environment) (file : Option String) : Prop where
  process : SpelledAs "DATABASE_URL" (env.entries.map Prod.fst)
  lines : ∀ text, file = some text → SpelledAs "DATABASE_URL"
    (((DotEnv.ofText text).filterMap DotEnv.Item.binding?).map Prod.fst)
  loads : ∃ loaded, env.load? file = .ok loaded
  alike : ∀ text, file = some text → env.get? "DATABASE_URL" = none →
    (fileEntries env text).lookup "DATABASE_URL" = (env.fileBindings text).lookup "DATABASE_URL"

section Readers

variable {α : Type} {env : Environment} {file : Option String}

theorem exists_reads_of_other {src : Source} {name : String}
    {read : String → Except ProblemKind α} (other : name ≠ "DATABASE_URL")
    (places : ∀ p ∈ problemsOf (src.optional name read), p.place = [.key "DATABASE_URL"]) :
    ∃ value, src.Reads name read value := by
  rw [← problemsOf_optional_eq_nil, List.eq_nil_iff_forall_not_mem]
  intro p hp
  have place := (place_of_mem_optional hp).symm.trans (places p hp)
  exact other (by simpa using place)

theorem exists_readFrom {src : Source} (valid : OthersValid src) {url : String}
    (h : src.get? "DATABASE_URL" = some url) :
    ∃ s : Settings, s.ReadFrom src ∧ s.databaseUrl = url := by
  unfold OthersValid at valid
  simp only [problemsOf_ofSource, List.forall_mem_append] at valid
  obtain ⟨-, zone, schema, size, timeout, eager, level, criteria⟩ := valid
  obtain ⟨zone, hzone⟩ := exists_reads_of_other (by decide) zone
  obtain ⟨schema, hschema⟩ := exists_reads_of_other (by decide) schema
  obtain ⟨size, hsize⟩ := exists_reads_of_other (by decide) size
  obtain ⟨timeout, htimeout⟩ := exists_reads_of_other (by decide) timeout
  obtain ⟨eager, heager⟩ := exists_reads_of_other (by decide) eager
  obtain ⟨level, hlevel⟩ := exists_reads_of_other (by decide) level
  obtain ⟨criteria, hcriteria⟩ := exists_reads_of_other (by decide) criteria
  exact ⟨⟨url, zone.getD "UTC", schema, size.getD 10, timeout, eager.getD true,
      level.getD .info, criteria⟩,
    ⟨h, ⟨zone, hzone, rfl⟩, hschema, ⟨size, hsize, rfl⟩, htimeout, ⟨eager, heager, rfl⟩,
      ⟨level, hlevel, rfl⟩, hcriteria⟩, rfl⟩

theorem searches_iff (valid : OthersValid (.of env file)) (url : String) :
    Searches env file url ↔ (Source.of env file).get? "DATABASE_URL" = some url := by
  constructor
  · rintro ⟨s, loaded, rfl⟩
    exact (ofSource_eq_ok.mp loaded).databaseUrl
  · intro h
    obtain ⟨s, read, hurl⟩ := exists_readFrom valid h
    exact ⟨s, ofSource_eq_ok.mpr read, hurl⟩

theorem migrates_iff (url : String) :
    Migrates env file url ↔ (loadedUrl env file).filter (· ≠ "") = some url := by
  unfold Migrates usualUrl loadedUrl
  cases env.load? file with
  | error e => simp [Except.mapError, bind, Except.bind]
  | ok loaded =>
      simp only [Except.mapError, bind, Except.bind, requireUrl]
      cases loaded.get? "DATABASE_URL" with
      | none => simp
      | some found => by_cases empty : found = "" <;> simp [empty, Option.filter]

theorem alike_of_not_refers {text : String}
    (plain : ∀ value, ("DATABASE_URL", some value) ∈
      (DotEnv.ofText text).filterMap DotEnv.Item.binding? → ¬ DotEnv.Refers value) :
    (fileEntries env text).lookup "DATABASE_URL" =
      (env.fileBindings text).lookup "DATABASE_URL" :=
  lookup_resolve_of_not_refers plain _ _

theorem get?_eq_loadedUrl (distinct : (env.entries.map Prod.fst).Nodup)
    (plain : PlainlyGiven env file) :
    (Source.of env file).get? "DATABASE_URL" = loadedUrl env file := by
  obtain ⟨loaded, hloaded⟩ := plain.loads
  simp only [Source.get?, valueOf?_process distinct plain.process, loadedUrl, hloaded,
    Environment.get?_of_load? hloaded]
  cases set : env.get? "DATABASE_URL" with
  | some url => rfl
  | none =>
      cases file with
      | none => rfl
      | some text =>
          have spelled : SpelledAs "DATABASE_URL" ((fileEntries env text).map Prod.fst) :=
            fun other h => plain.lines text rfl other (mem_keys_of_mem_resolve h)
          have once : ((fileEntries env text).map Prod.fst).Nodup := nodup_keys_resolve
          have entries : (Source.of env (some text)).file = fileEntries env text := rfl
          rw [entries, valueOf?_of_spelledAs once spelled, plain.alike text rfl set]
          rfl

end Readers

theorem sameDatabase_iff_eq {env : Environment} {file : Option String}
    (valid : OthersValid (.of env file)) : SameDatabase env file ↔
      (Source.of env file).get? "DATABASE_URL" = (loadedUrl env file).filter (· ≠ "") := by
  unfold SameDatabase
  simp only [searches_iff valid, migrates_iff]
  exact Option.ext_iff.symm

/-- Both use one database exactly if they find one value and it is not empty; an empty one starts
searches alone. -/
theorem same_database_iff {env : Environment} {file : Option String}
    (distinct : (env.entries.map Prod.fst).Nodup) (valid : OthersValid (.of env file)) :
    (SameDatabase env file ↔
      (Source.of env file).get? "DATABASE_URL" = (loadedUrl env file).filter (· ≠ "")) ∧
    (PlainlyGiven env file →
      (SameDatabase env file ↔ (Source.of env file).get? "DATABASE_URL" ≠ some "")) ∧
    ((Source.of env file).get? "DATABASE_URL" = some "" →
      Searches env file "" ∧ ∀ url, Migrates env file url → url ≠ "") := by
  refine ⟨sameDatabase_iff_eq valid, ?_, ?_⟩
  · intro plain
    rw [sameDatabase_iff_eq valid, get?_eq_loadedUrl distinct plain]
    cases loadedUrl env file with
    | none => simp
    | some url => by_cases empty : url = "" <;> simp [empty, Option.filter]
  · intro empty
    refine ⟨(searches_iff valid "").mpr empty, ?_⟩
    rintro url migrates rfl
    have kept := (migrates_iff "").mp migrates
    simp [Option.filter_eq_some_iff] at kept

/-- Spelled in two ways, the variable names two databases: settings take the last one whatever its
case, and migrations the one in capitals. -/
example : Searches ⟨[("DATABASE_URL", "one"), ("Database_Url", "two")]⟩ none "two" ∧
    Migrates ⟨[("DATABASE_URL", "one"), ("Database_Url", "two")]⟩ none "one" := by
  refine ⟨⟨⟨"two", "UTC", none, 10, none, true, .info, none⟩, by decide +kernel, rfl⟩, ?_⟩
  unfold Migrates
  decide +kernel

def plainEnvironment : Environment := ⟨[("DB_SCHEMA", "catalog"), ("LOG_LEVEL", "warning")]⟩

def plainFile : String := "# local\nLOG_LEVEL=debug\nDATABASE_URL=postgresql://localhost/catalog\n"

theorem bindings_plainFile : (DotEnv.ofText plainFile).filterMap DotEnv.Item.binding? =
    [("LOG_LEVEL", some "debug"), ("DATABASE_URL", some "postgresql://localhost/catalog")] := by
  decide +kernel

theorem plainlyGiven_plainFile : PlainlyGiven plainEnvironment (some plainFile) where
  process := by
    unfold SpelledAs
    decide +kernel
  lines := by
    intro text h
    obtain rfl := Option.some.inj h
    rw [bindings_plainFile]
    unfold SpelledAs
    decide +kernel
  loads := ⟨⟨plainEnvironment.entries ++ [("DATABASE_URL", "postgresql://localhost/catalog")]⟩,
    by decide +kernel⟩
  alike := by
    intro text h _
    obtain rfl := Option.some.inj h
    refine alike_of_not_refers fun value hvalue => ?_
    rw [bindings_plainFile] at hvalue
    obtain rfl : value = "postgresql://localhost/catalog" := by simpa using hvalue
    unfold DotEnv.Refers
    decide +kernel

theorem same_database_plainly :
    (plainEnvironment.entries.map Prod.fst).Nodup ∧
    OthersValid (.of plainEnvironment (some plainFile)) ∧
    PlainlyGiven plainEnvironment (some plainFile) ∧
    SameDatabase plainEnvironment (some plainFile) ∧
    Migrates plainEnvironment (some plainFile) "postgresql://localhost/catalog" := by
  have distinct : (plainEnvironment.entries.map Prod.fst).Nodup := by decide
  have valid : OthersValid (.of plainEnvironment (some plainFile)) := by
    unfold OthersValid
    decide +kernel
  have given : (Source.of plainEnvironment (some plainFile)).get? "DATABASE_URL" ≠ some "" := by
    decide +kernel
  have migrates : Migrates plainEnvironment (some plainFile) "postgresql://localhost/catalog" := by
    unfold Migrates
    decide +kernel
  obtain ⟨-, plainly, -⟩ := same_database_iff distinct valid
  exact ⟨distinct, valid, plainlyGiven_plainFile, (plainly plainlyGiven_plainFile).mpr given,
    migrates⟩

/-- An empty value is set, and so is not taken from anywhere else. -/
theorem empty_url_searched :
    OthersValid (.of ⟨[("DATABASE_URL", "")]⟩ none) ∧
    Searches ⟨[("DATABASE_URL", "")]⟩ none "" ∧
    ¬ SameDatabase ⟨[("DATABASE_URL", "")]⟩ none := by
  have searches : Searches ⟨[("DATABASE_URL", "")]⟩ none "" :=
    ⟨⟨"", "UTC", none, 10, none, true, .info, none⟩, by decide +kernel, rfl⟩
  have refused : ¬ Migrates ⟨[("DATABASE_URL", "")]⟩ none "" := by
    unfold Migrates
    decide +kernel
  refine ⟨?_, searches, fun same => refused ((same "").mp searches)⟩
  unfold OthersValid
  decide +kernel

end CatalogSearch.Database
