import CatalogSearch.Proofs.Config.Settings
import CatalogSearch.Proofs.Database.Sessions
import CatalogSearch.Proofs.Sql.Names

/-!
# Which names are allowed

Names are checked in three places: those of a graph when it is made, the schema of the settings when
they are read, and the schema of a session when its statements are made.  All three mean a lowercase
ASCII letter or an underscore, followed by such characters and ASCII digits (`IsName`).  The last two
let a name through that a line feed ends.  Main statement: `allowlists_agree_iff`.
-/

set_option autoImplicit false

namespace CatalogSearch.Text

def IsNameStart (c : Char) : Prop := c = '_' ∨ ('a' ≤ c ∧ c ≤ 'z')

def IsNameChar (c : Char) : Prop := IsNameStart c ∨ ('0' ≤ c ∧ c ≤ '9')

def IsName (s : String) : Prop :=
  ∃ first rest, s.toList = first :: rest ∧ IsNameStart first ∧ ∀ c ∈ rest, IsNameChar c

def IsLineFed (s : String) : Prop := ∃ name, IsName name ∧ s = name ++ "\n"

theorem isIdentifierStart_iff {c : Char} : isIdentifierStart c = true ↔ IsNameStart c := by
  simp [isIdentifierStart, IsNameStart]

theorem isIdentifierChar_iff {c : Char} : isIdentifierChar c = true ↔ IsNameChar c := by
  simp [isIdentifierChar, IsNameChar, isIdentifierStart_iff]

theorem isIdentifierList_iff {s : List Char} :
    isIdentifierList s = true ↔ IsName (String.ofList s) := by
  cases s with
  | nil => simp [isIdentifierList, IsName]
  | cons first rest =>
      simp [isIdentifierList, IsName, isIdentifierStart_iff, isIdentifierChar_iff]

theorem isIdentifier_iff {s : String} : isIdentifier s = true ↔ IsName s := by
  rw [isIdentifier, isIdentifierList_iff, String.ofList_toList]

theorem not_isNameChar_lineFeed : ¬ IsNameChar '\n' := by
  unfold IsNameChar IsNameStart
  decide

theorem IsLineFed.not_isName {s : String} (h : IsLineFed s) : ¬ IsName s := by
  obtain ⟨name, ⟨first, rest, hname, -, -⟩, rfl⟩ := h
  rintro ⟨first', rest', hs, -, chars⟩
  rw [String.toList_append, hname, List.cons_append] at hs
  obtain ⟨-, rfl⟩ := List.cons.inj hs
  exact not_isNameChar_lineFeed (chars '\n' (by simp))

theorem isSchemaName_iff {s : String} : isSchemaName s = true ↔ IsName s ∨ IsLineFed s := by
  unfold isSchemaName
  rw [Bool.or_eq_true, Bool.and_eq_true, decide_eq_true_iff, isIdentifierList_iff,
    isIdentifierList_iff, String.ofList_toList]
  refine or_congr_right ⟨?_, ?_⟩
  · rintro ⟨last, named⟩
    refine ⟨_, named, String.toList_inj.mp ?_⟩
    have shown := List.dropLast_append_getLast? _ last
    rw [String.toList_append, String.toList_ofList]
    exact shown.symm
  · rintro ⟨name, named, rfl⟩
    have chars : (name ++ "\n").toList = name.toList ++ ['\n'] := String.toList_append
    rw [chars]
    refine ⟨List.getLast?_concat, ?_⟩
    rw [List.dropLast_concat, String.ofList_toList]
    exact named

end CatalogSearch.Text

namespace CatalogSearch.Catalog

open Config Database Sql Text Validation

/-- What a graph may be made of, in the place of any of its names. -/
def GraphAllows (name : String) : Prop := ∀ kind, checkName kind name = .ok ()

/-- What the settings take as the schema, whatever the other settings are. -/
def SettingsAllow (name : String) : Prop :=
  ∀ src : Source, src.get? "DB_SCHEMA" = some name → ¬ src.Refuses "DB_SCHEMA"

/-- What a session takes as its schema, whatever its timeout is, if that is allowed. -/
def SessionAllows (name : String) : Prop :=
  ∀ timeout timeouts, timeoutStatements timeout = .ok timeouts →
    ∃ statements, sessionStatements ⟨timeout, some (.named name)⟩ = .ok statements

theorem graphAllows_iff {name : String} : GraphAllows name ↔ IsName name := by
  rw [← isIdentifier_iff]
  constructor
  · intro h
    exact checkName_eq_ok (h .entity)
  · intro h kind
    exact if_pos h

theorem refuses_schema_iff {src : Source} :
    src.Refuses "DB_SCHEMA" ↔ problemsOf (src.optional "DB_SCHEMA" readSchema) ≠ [] := by
  unfold Source.Refuses
  rw [problemsOf_ofSource]
  constructor
  · rintro ⟨p, hp, hplace⟩ none
    simp only [List.mem_append, none, List.not_mem_nil, false_or] at hp
    rcases hp with hp | hp | hp | hp | hp | hp | hp
    · exact absurd ((place_of_mem_required hp).symm.trans hplace) (by decide)
    all_goals exact absurd ((place_of_mem_optional hp).symm.trans hplace) (by decide)
  · intro h
    obtain ⟨p, hp⟩ := List.exists_mem_of_ne_nil _ h
    exact ⟨p, by simp [hp], place_of_mem_optional hp⟩

theorem refuses_schema_of_get? {src : Source} {name : String}
    (h : src.get? "DB_SCHEMA" = some name) :
    src.Refuses "DB_SCHEMA" ↔ isSchemaName name = false := by
  rw [refuses_schema_iff, Ne, problemsOf_optional_eq_nil, ← Bool.not_eq_true, not_iff_not]
  constructor
  · rintro ⟨value, reads⟩
    cases reads with
    | missing missing => simp [missing] at h
    | given found ok =>
        obtain rfl := Option.some.inj (found.symm.trans h)
        exact (readSchema_eq_ok.mp ok).1
  · intro valid
    exact ⟨_, .given h (readSchema_eq_ok.mpr ⟨valid, rfl⟩)⟩

theorem settingsAllow_iff {name : String} : SettingsAllow name ↔ IsName name ∨ IsLineFed name := by
  rw [← isSchemaName_iff]
  constructor
  · intro h
    have given : (Source.mk [("DB_SCHEMA", some name)] []).get? "DB_SCHEMA" = some name := by
      simp [Source.get?, valueOf?]
    simpa [refuses_schema_of_get? given] using h _ given
  · intro valid src given
    simp [refuses_schema_of_get? given, valid]

theorem schemaStatements_named_eq_ok {name : String} :
    (∃ schemas, schemaStatements (some (.named name)) = .ok schemas) ↔
      isSchemaName name = true := by
  simp only [schemaStatements]
  by_cases valid : isSchemaName name = true
  · simp [valid]
  · simp [valid]

theorem sessionAllows_iff {name : String} : SessionAllows name ↔ IsName name ∨ IsLineFed name := by
  rw [← isSchemaName_iff, ← schemaStatements_named_eq_ok]
  constructor
  · intro h
    obtain ⟨_, made⟩ := h none [] rfl
    obtain ⟨_, schemas, _, hschemas, _⟩ := sessionStatements_eq_ok.mp made
    exact ⟨schemas, hschemas⟩
  · rintro ⟨schemas, hschemas⟩ timeout timeouts htimeouts
    exact ⟨_, sessionStatements_eq_ok.mpr ⟨_, _, htimeouts, hschemas, rfl⟩⟩

/-- A name is allowed in all three places or in none, and only if it is one. -/
structure AllowedAlike (name : String) : Prop where
  graph_iff_settings : GraphAllows name ↔ SettingsAllow name
  settings_iff_session : SettingsAllow name ↔ SessionAllows name
  session_iff_isName : SessionAllows name ↔ IsName name

theorem allowlists_agree_iff (name : String) :
    (GraphAllows name ↔ IsName name) ∧
    (SettingsAllow name ↔ IsName name ∨ IsLineFed name) ∧
    (SessionAllows name ↔ IsName name ∨ IsLineFed name) ∧
    (AllowedAlike name ↔ ¬ IsLineFed name) := by
  refine ⟨graphAllows_iff, settingsAllow_iff, sessionAllows_iff, ?_, ?_⟩
  · intro alike lineFed
    have named := alike.session_iff_isName.mp (sessionAllows_iff.mpr (Or.inr lineFed))
    exact lineFed.not_isName named
  · intro h
    have only : IsName name ∨ IsLineFed name ↔ IsName name := or_iff_left h
    refine ⟨?_, ?_, ?_⟩
    · rw [graphAllows_iff, settingsAllow_iff, only]
    · rw [settingsAllow_iff, sessionAllows_iff]
    · rw [sessionAllows_iff, only]

/-- A line feed after a schema is seen by the graph alone. -/
theorem line_feed_tells_apart : ¬ AllowedAlike "catalog\n" := by
  intro alike
  have valid : isSchemaName "catalog\n" = true := by decide
  have graph := alike.graph_iff_settings.mpr (settingsAllow_iff.mpr (isSchemaName_iff.mp valid))
  have refused : checkName .table "catalog\n" ≠ .ok () := by decide
  exact refused (graph .table)

end CatalogSearch.Catalog
