import CatalogSearch.Proofs.Catalog.EagerSearch
import CatalogSearch.Proofs.Sql.Unresolved

/-!
# Which searches succeed

Main statement: `search_fails_at_first_missing`.  Over a graph, a search of a made descriptor fails
for a path that does not resolve and for nothing else, with what the first such path misses first,
whether it fetches eagerly or not.  All paths of a product search resolve in the catalog, so that
every product search has a statement.
-/

set_option autoImplicit false

namespace CatalogSearch.Catalog

open Criteria Sql

theorem exists_productQuery (values : List (String × Value)) (eager : Bool) :
    ∃ select, (productQuery values eager).result = .ok select := by
  have hread : (IntentCache.empty.read (.declared productSearch)).result = .ok productIntents :=
    read_of_faithful (faithful_empty _) productSearch_intents?
  have hfields := readFields?_eq_ok productIntents (read?_productSearch values)
  have hroot : graph.entity? "product" = .ok product := rfl
  obtain ⟨criteria, _, hpaths, resolved⟩ :=
    search_resolves graph_constructed hroot productIntents_sound hread hfields eager
  rw [hpaths] at resolved
  exact resolved.succeeds.mpr productPaths_resolve

theorem search_fails_at_first_missing :
    (∀ {cache : IntentCache} {key : Nat} {name entity : String} {specs : List FieldSpec}
        {d : Declaration} {attributes : List (String × Value)} {g : EntityGraph} {root : Entity}
        {intents : List FieldIntent} {fields : List (FieldIntent × Value)},
      g.Constructed → g.entity? entity = .ok root →
      Declaration.ofFields? key name specs = .ok d → (∀ spec ∈ specs, CleanPath spec.name) →
      cache.Faithful d → d.intents? = .ok intents →
      readFields? ⟨.declared d, attributes⟩ intents = .ok fields → ∀ eager : Bool,
        ∃ criteria, (compile cache ⟨.declared d, attributes⟩).result = .ok criteria ∧
          SearchResolves g root criteria.predicate.paths
            (buildQuery cache ⟨.declared d, attributes⟩ g entity eager).result) ∧
    ∀ (values : List (String × Value)) (eager : Bool),
      ∃ select, (productQuery values eager).result = .ok select := by
  refine ⟨?_, exists_productQuery⟩
  intro cache key name entity specs d attributes g root intents fields hg hroot hd clean faithful
    hintents hfields eager
  obtain ⟨criteria, hcriteria, _, resolved⟩ :=
    search_resolves hg hroot (sound_of_intents? hd clean hintents)
      (read_of_faithful faithful hintents) hfields eager
  exact ⟨criteria, hcriteria, resolved⟩

/-- A search for names and, through a relationship that categories do not have, for owners. -/
def ownedSearch : Declaration :=
  ⟨1, "Owned", [⟨"term", [.marker (.term ["name", "category.owner.name", "owner"] .like)], none⟩],
    true⟩

theorem search_fails_at_first_missing_owned :
    ∃ criteria, (compile .empty ⟨.declared ownedSearch, [("term", .text "toy")]⟩).result =
        .ok criteria ∧
      SearchResolves graph product criteria.predicate.paths
        (buildQuery .empty ⟨.declared ownedSearch, [("term", .text "toy")]⟩ graph "product"
          true).result := by
  have made : Declaration.ofFields? 1 "Owned" [⟨"term", [.marker (.term [.text "name",
      .text "category.owner.name", .text "owner"] none)], none, true⟩] = .ok ownedSearch := rfl
  exact search_fails_at_first_missing.1 graph_constructed rfl made (by decide) (faithful_empty _)
    rfl rfl true

end CatalogSearch.Catalog
