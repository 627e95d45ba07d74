import CatalogSearch.Call
import CatalogSearch.Criteria.Predicate

/-!
# Query engines

An engine builds one query.  Positions, attributes and expressions are its own: whoever expresses
a predicate only hands them back.  Every operation takes the state of the engine and gives an
answer or an error, together with the state that it leaves behind.
-/

set_option autoImplicit false

namespace CatalogSearch.Criteria

structure QueryEngine (σ ε Pos Attr Expr : Type) where
  root : Pos
  /-- True of a position that stands for no position. -/
  isNull : Pos → Bool
  /-- A new left outer traversal of a relationship. -/
  join : Pos → String → Call σ ε Pos
  get : Pos → String → Call σ ε Attr
  /-- Loads a relationship of the root entity along with it. -/
  fetch : String → Call σ ε Unit
  distinct : Call σ ε Unit
  compare : Attr → Comparison → Call σ ε Expr
  all : List Expr → Call σ ε Expr
  any : List Expr → Call σ ε Expr
  truth : Call σ ε Expr
  describe : ε → String

end CatalogSearch.Criteria
