import CatalogSearch.Proofs.Criteria.Compilation
import CatalogSearch.Sql.Engine

/-!
# How a search goes on

A search of a root that the graph has, once its criteria are compiled, is the translation of their
predicate from an empty query, after the fetches if it is an eager one.
-/

set_option autoImplicit false

namespace CatalogSearch.Sql

open Criteria

def Query.ofRoot (g : EntityGraph) (root : Entity) : Query := ⟨g, root, [], [], false, 0⟩

def Query.ofJoins (g : EntityGraph) (root : Entity) (joins : List LeftJoin) : Query :=
  ⟨g, root, joins, [], false, joins.length⟩

variable {cache : IntentCache} {i : Instance} {g : EntityGraph} {entity : String} {root : Entity}
  {criteria : CompiledCriteria}

def plainSelect (root : Entity) (joins : List LeftJoin) (c : Condition) : Select :=
  ⟨false, root.columns.map fun name => ⟨⟨.root, name⟩, none⟩, ⟨root, .root⟩, joins, c⟩

theorem select_eq_plainSelect (g : EntityGraph) (root : Entity) (joins : List LeftJoin)
    (c : Condition) : (Query.ofJoins g root joins).select c = plainSelect root joins c := by
  simp [Query.ofJoins, Query.select, Query.items, Query.rootPosition, plainSelect]

theorem buildQuery_eq (hroot : g.entity? entity = .ok root)
    (hcriteria : (compile cache i).result = .ok criteria) (eager : Bool) :
    (buildQuery cache i g entity eager).result =
      match (buildCompiled (sqlEngine ⟨root, .root⟩) eager criteria (.ofRoot g root)).1 with
      | (.ok c, q) => .ok (q.select c)
      | (.error x, _) => .error (.build (.expression x)) := by
  simp only [buildQuery, Query.start?, hroot, build, hcriteria, Query.rootPosition, Query.ofRoot]
  rcases buildCompiled (sqlEngine ⟨root, .root⟩) eager criteria ⟨g, root, [], [], false, 0⟩ with
    ⟨⟨_ | c, q⟩, log⟩ <;> rfl

theorem plain_buildCompiled (root : Entity) (criteria : CompiledCriteria) (q : Query) :
    (buildCompiled (sqlEngine ⟨root, .root⟩) false criteria q).1 =
      toExpression (sqlEngine ⟨root, .root⟩) criteria.predicate q := rfl

end CatalogSearch.Sql
