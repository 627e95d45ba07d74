import CatalogSearch.Sql.Schema

/-!
# The entities of the catalog

Products belong to categories, categories to departments, and departments have a manager; a product
has any number of reviews.
-/

set_option autoImplicit false

namespace CatalogSearch.Catalog

open Sql

/-- A relationship of a name to the entity whose `id` the local column holds. -/
def toOne (name target localColumn : String) : String × Relationship :=
  (name, ⟨name, target, localColumn, "id", false⟩)

def product : Entity where
  name := "product"
  table := "products"
  columns := ["id", "name", "description", "price", "status", "category_id", "created_at"]
  relationships :=
    [toOne "category" "category" "category_id",
      ("reviews", ⟨"reviews", "review", "id", "product_id", true⟩)]

def category : Entity where
  name := "category"
  table := "categories"
  columns := ["id", "name", "department_id"]
  relationships := [toOne "department" "department" "department_id"]

def department : Entity where
  name := "department"
  table := "departments"
  columns := ["id", "name", "manager_id"]
  relationships := [toOne "manager" "employee" "manager_id"]

def employee : Entity where
  name := "employee"
  table := "employees"
  columns := ["id", "name", "email"]
  relationships := []

def review : Entity where
  name := "review"
  table := "reviews"
  columns := ["id", "product_id", "rating", "body", "created_at"]
  relationships := []

def graph : EntityGraph := ⟨[product, category, department, employee, review]⟩

end CatalogSearch.Catalog
