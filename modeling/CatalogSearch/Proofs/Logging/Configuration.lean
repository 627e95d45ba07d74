import CatalogSearch.Logging.Configuration

/-!
# Configurations that succeed

Main statement: `configure_names`.  Loggers can be configured by the names of levels, whatever their
state, and whatever level the environment names.
-/

set_option autoImplicit false

namespace CatalogSearch.Logging

open Config

theorem upper_name (level : Level) : Text.upper level.name = level.name := by
  cases level <;> decide

theorem severityOf_name (level : Level) : severityOf level.name = .ok level.severity := by
  cases level <;> rfl

theorem rootLevelName_name (env : Environment) (level : Level) :
    rootLevelName env (some level.name) = level.name := by
  have given : (some level.name).filter (· ≠ "") = some level.name := by
    cases level <;> rfl
  simp only [rootLevelName, given, Option.some_or, Option.getD_some]
  exact upper_name level

theorem configureRoot_name (level : Level) (l : Loggers) :
    (configureRoot level.name l).1 = .ok () := by
  unfold configureRoot
  by_cases fresh : l.formats.isEmpty
  · rw [if_pos fresh, severityOf_name]
  · rw [if_neg fresh]

theorem configureCriteria_name (level : Option Level) (l : Loggers) :
    (configureCriteria (level.map Level.name) l).1 = .ok () := by
  unfold configureCriteria
  cases level with
  | none => rfl
  | some level =>
      simp only [Option.map_some]
      rw [upper_name, severityOf_name]

theorem configure_names (env : Environment) (level : Level) (criteriaLevel : Option Level)
    (l : Loggers) :
    (configure env (some level.name) (criteriaLevel.map Level.name) l).1 = .ok () := by
  have root := configureRoot_name level l
  unfold configure
  rw [rootLevelName_name]
  cases hroot : configureRoot level.name l with
  | mk first configured =>
      rw [hroot] at root
      obtain rfl : first = .ok () := root
      have criteria := configureCriteria_name criteriaLevel configured
      cases hcriteria : configureCriteria (criteriaLevel.map Level.name) configured with
      | mk second _ =>
          rw [hcriteria] at criteria
          obtain rfl : second = .ok () := criteria
          simp only [hcriteria]

end CatalogSearch.Logging
