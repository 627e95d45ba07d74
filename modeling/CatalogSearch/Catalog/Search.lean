import CatalogSearch.Catalog.Graph
import CatalogSearch.Sql.Engine

/-!
# Product searches

The descriptor of a product search.  Every field may be missing, so that a search without fields
matches the whole catalog.
-/

set_option autoImplicit false

namespace CatalogSearch.Catalog

open Criteria

def searchField (name : String) (marker : Option Marker) : Field :=
  ⟨name, (marker.map Annotation.marker).toList, some .null⟩

def searchFields : List Field :=
  [searchField "term" (some (.term ["name", "description"] .like)),
    searchField "price_range" (some (.range "price")),
    searchField "created" (some (.range "created_at")),
    searchField "status_list" (some (.direct "status" .equal)),
    searchField "category_id" none,
    searchField "category_name" (some (.direct "category.name" .like)),
    searchField "department_name" (some (.direct "category.department.name" .equal)),
    searchField "manager_name" (some (.direct "category.department.manager.name" .like)),
    searchField "rating" (some (.range "reviews.rating"))]

def productSearch : Declaration := ⟨0, "ProductSearch", searchFields, true⟩

def productQuery (values : List (String × Value)) (eager : Bool) : Sql.SearchRun :=
  Sql.buildQuery .empty (.ofValues (.declared productSearch) values) graph "product" eager

end CatalogSearch.Catalog
