import CatalogSearch.Value.Basic

/-!
# Predicates

A predicate is a tree of conjunctions and disjunctions over leaves, each comparing the attribute at
a dotted path with bound values.  An empty conjunction matches everything.  A leaf may also ask for
a comparison that no engine offers, which no compiled predicate does.
-/

set_option autoImplicit false

namespace CatalogSearch.Criteria

/-- A comparison of one attribute.  `contains` asks for a substring, whatever the case, of a needle
in lowercase; bounds are inclusive. -/
inductive Comparison where
  | equal (value : Value)
  | contains (needle : String)
  | between (lower upper : Value)
  | atLeast (value : Value)
  | atMost (value : Value)
  | oneOf (values : List Value)

inductive Predicate where
  | leaf (path : String) (comparison : Comparison)
  | unsupported (path comparison : String)
  | anyOf (operands : List Predicate)
  | allOf (operands : List Predicate)
  deriving Inhabited

namespace Predicate

mutual

def paths : Predicate → List String
  | .leaf path _ => [path]
  | .unsupported path _ => [path]
  | .anyOf operands => pathsOf operands
  | .allOf operands => pathsOf operands

def pathsOf : List Predicate → List String
  | [] => []
  | p :: rest => p.paths ++ pathsOf rest

end

end Predicate

end CatalogSearch.Criteria
