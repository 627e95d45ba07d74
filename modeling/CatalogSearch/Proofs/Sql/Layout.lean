import CatalogSearch.Proofs.Criteria.Walk
import CatalogSearch.Proofs.Sql.Choices

/-!
# The joins of trails

`Laid` holds of the joins that trails need: one for each trail reached, in their order, numbered
from one, each from the position of the trail before it.  Main statement: the scopes of such joins
are the choices along the trails (`joinAll_scopeOf`), also where rows were fetched before.
-/

set_option autoImplicit false

namespace CatalogSearch.Sql

open Criteria

/-! ## The joins of a translation -/

/-- The joins are those of the trails reached, numbered from one. -/
inductive Laid (g : EntityGraph) (root : Entity) : Reached Position → List LeftJoin → Prop
  | nil : Laid g root [] []
  | join {reached joins parent p name via target} (before : Laid g root reached joins)
      (at_ : reachedAt? ⟨root, .root⟩ reached parent = some p)
      (step : g.step? p.entity name = some (via, target))
      (fresh : parent ++ [name] ∉ reached.map Prod.fst) :
      Laid g root (reached ++ [(parent ++ [name], ⟨target, .joined (joins.length + 1)⟩)])
        (joins ++ [⟨⟨target, .joined (joins.length + 1)⟩, p.qualifier, via⟩])

section Laid

variable {g : EntityGraph} {root : Entity} {reached : Reached Position} {joins : List LeftJoin}

theorem Laid.length_eq (laid : Laid g root reached joins) : reached.length = joins.length := by
  induction laid with
  | nil => rfl
  | join before at_ step fresh ih => simp [ih]

theorem Laid.qualifiers (laid : Laid g root reached joins) :
    joins.map (fun j => j.position.qualifier) =
      (List.range joins.length).map fun number => .joined (number + 1) := by
  induction laid with
  | nil => rfl
  | join before at_ step fresh ih => simp [ih, List.range_succ]

theorem Laid.entityAt (laid : Laid g root reached joins) :
    ∀ {trail : List String} {p : Position}, reachedAt? ⟨root, .root⟩ reached trail = some p →
      g.entityAt? root trail = some p.entity := by
  induction laid with
  | nil =>
      intro trail p h
      by_cases ht : trail = []
      · obtain rfl := by simpa [reachedAt?, ht] using h
        rw [ht]
        rfl
      · simp [reachedAt?, ht] at h
  | @join reached joins parent q name via target before at_ step fresh ih =>
      intro trail p h
      rcases reachedAt?_append_singleton_cases h with h | ⟨rfl, rfl⟩
      · exact ih h
      · rw [g.entityAt?_append, ih at_]
        simp [EntityGraph.entityAt?, step]

theorem Laid.linkAt (laid : Laid g root reached joins) {parent : List String} {p : Position}
    (at_ : reachedAt? ⟨root, .root⟩ reached parent = some p) (name : String) :
    g.linkAt? root (parent ++ [name]) = g.step? p.entity name := by
  simp [EntityGraph.linkAt?, laid.entityAt at_]

end Laid

/-! ## Scopes and choices -/

section Scopes

variable {V : Type}

/-- The scope of a choice after fetches: the alias of a join stands for the row picked for its
trail. -/
def scopeOf (fetched : Nat → Row V) (reached : Reached Position) (choice : Choice V) : Scope V
  | .root => choice []
  | .joined 0 => nullRow
  | .joined (number + 1) =>
      match reached[number]? with
      | some r => choice r.1
      | none => nullRow
  | .fetched number => fetched number

theorem scopeOf_startingWith (row : Row V) :
    scopeOf (fun _ => nullRow) [] (startingWith row) =
      Function.update (fun _ => nullRow) .root row := by
  funext qualifier
  rcases qualifier with _ | (_ | number) | number
  · simp [scopeOf, startingWith]
  · simp [scopeOf]
  · simp [scopeOf]
  · simp [scopeOf]

variable {g : EntityGraph} {root : Entity} {reached : Reached Position} {joins : List LeftJoin}

theorem Laid.scopeOf_qualifier (laid : Laid g root reached joins) :
    ∀ {trail : List String} {p : Position}, reachedAt? ⟨root, .root⟩ reached trail = some p →
      ∀ (fetched : Nat → Row V) (more : Reached Position) (choice : Choice V),
        scopeOf fetched (reached ++ more) choice p.qualifier = choice trail := by
  induction laid with
  | nil =>
      intro trail p h fetched more choice
      by_cases ht : trail = []
      · obtain rfl := by simpa [reachedAt?, ht] using h
        rw [ht]
        rfl
      · simp [reachedAt?, ht] at h
  | @join reached joins parent q name via target before at_ step fresh ih =>
      intro trail p h fetched more choice
      rcases reachedAt?_append_singleton_cases h with h | ⟨rfl, rfl⟩
      · rw [List.append_assoc]
        exact ih h fetched _ choice
      · simp [scopeOf, ← before.length_eq]

/-- Picking a row for a new trail is giving that row to the trail's alias. -/
theorem scopeOf_update (fetched : Nat → Row V) (choice : Choice V) (row : Row V)
    {trail : List String} {p : Position} (hne : trail ≠ []) (fresh : trail ∉ reached.map Prod.fst) :
    scopeOf fetched (reached ++ [(trail, p)]) (Function.update choice trail row) =
      Function.update (scopeOf fetched reached choice) (.joined (reached.length + 1)) row := by
  funext qualifier
  -- The alias is that of an earlier join, of the new one, or of none.
  rcases qualifier with _ | (_ | number) | number
  · simp [scopeOf, Function.update_of_ne (Ne.symm hne)]
  · simp [scopeOf]
  · rcases Nat.lt_trichotomy number reached.length with hlt | rfl | hgt
    · have hmem : reached[number].1 ∈ reached.map Prod.fst :=
        List.mem_map_of_mem (List.getElem_mem hlt)
      have hother : reached[number].1 ≠ trail := fun e => fresh (e ▸ hmem)
      have hnumber : number ≠ reached.length := Nat.ne_of_lt hlt
      simp [scopeOf, List.getElem?_append_left hlt, hlt, Function.update_of_ne hother, hnumber]
    · simp [scopeOf]
    · have hnumber : number ≠ reached.length := Nat.ne_of_gt hgt
      have hnone : (reached ++ [(trail, p)])[number]? = none := by
        rw [List.getElem?_eq_none_iff, List.length_append, List.length_singleton]
        omega
      simp [scopeOf, hnone, hnumber, Nat.le_of_lt hgt]
  · simp [scopeOf]

variable [DecidableEq V]

theorem rows_eq_relatedOrNull (db : Database V) {scope : Scope V} {j : LeftJoin} {owner : Row V}
    (howner : scope j.parent = owner) :
    j.rows db scope = relatedOrNull db j.via j.position.entity owner := by
  have hmatching : ((db j.position.entity.table).filter fun row => j.on scope row = .yes) =
      related db j.via j.position.entity owner := by
    apply Multiset.filter_congr
    intro row _
    rw [LeftJoin.on, equalCells_eq_yes, howner]
  simp only [LeftJoin.rows, relatedOrNull, hmatching]

theorem joinAll_scopeOf (db : Database V) (laid : Laid g root reached joins)
    (fetched : Nat → Row V) (choice : Choice V) :
    joinAll db joins (scopeOf fetched [] choice) =
      (choices db g root (reached.map Prod.fst) choice).map (scopeOf fetched reached) := by
  induction laid with
  | nil => simp [joinAll, choices]
  | @join reached joins parent p name via target before at_ step fresh ih =>
      have hne : parent ++ [name] ≠ [] := by simp
      rw [joinAll_append_singleton, ih, Multiset.bind_map, List.map_append, choices_append,
        Multiset.map_bind]
      apply Multiset.bind_congr
      intro picked _
      -- The trail before the new one was reached, so its alias has the row picked for it.
      have howner : scopeOf fetched reached picked p.qualifier = picked parent := by
        simpa using before.scopeOf_qualifier at_ fetched [] picked
      have hrows : LeftJoin.rows db ⟨⟨target, .joined (joins.length + 1)⟩, p.qualifier, via⟩
          (scopeOf fetched reached picked) = relatedOrNull db via target (picked parent) :=
        rows_eq_relatedOrNull db howner
      simp only [List.map_cons, List.map_nil, choices, Multiset.bind_singleton, Multiset.map_map,
        candidates, before.linkAt at_, step, List.dropLast_concat, hrows]
      apply Multiset.map_congr rfl
      intro row _
      rw [Function.comp_apply, scopeOf_update fetched picked row hne fresh, before.length_eq]

end Scopes

end CatalogSearch.Sql
