/-!
# Association lists

Lists of keys with values, in the order in which the keys came.
-/

set_option autoImplicit false

namespace CatalogSearch

variable {α : Type}

/-- Puts a value under a key: in the key's place if it has one, else at the end. -/
def put (key : String) (a : α) : List (String × α) → List (String × α)
  | [] => [(key, a)]
  | (k, b) :: rest => if k = key then (k, a) :: rest else (k, b) :: put key a rest

/-- Of entries with one key the last counts, at the place of the first. -/
def lastByKey (entries : List (String × α)) : List (String × α) :=
  entries.foldl (fun kept entry => put entry.1 entry.2 kept) []

end CatalogSearch
