import CatalogSearch.Catalog.Graph
import CatalogSearch.Proofs.Sql.Graph

/-!
# The catalog as a graph

The entities of the catalog pass every check, and each relationship leads to the entity that its
name tells.
-/

set_option autoImplicit false

namespace CatalogSearch.Catalog

open Sql

theorem graph_constructed : graph.Constructed :=
  EntityGraph.constructed_of_checks (by decide) (by decide)

end CatalogSearch.Catalog
