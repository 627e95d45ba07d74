import CatalogSearch.Criteria.Build
import CatalogSearch.Sql.Query

/-!
# Queries as an engine

A query over an entity graph is an engine for predicates: its positions are occurrences of
entities, its attributes are columns, its expressions conditions.
-/

set_option autoImplicit false

namespace CatalogSearch.Sql

open Criteria

def columnCall (position : Position) (name : String) : QueryCall Column := fun q =>
  ((position.column? name).mapError .schema, q)

def sqlEngine (root : Position) : QueryEngine Query QueryError Position Column Condition where
  root := root
  isNull := fun _ => false
  join := Query.join
  get := columnCall
  fetch := Query.fetch
  distinct := Query.askDistinct
  compare column comparison := fun q => (column.compare? comparison, q)
  all operands := fun q => (Condition.group? .all operands, q)
  any operands := fun q => (Condition.group? .any operands, q)
  truth := Call.pure .truth
  describe := QueryError.message

inductive SearchError where
  | query (e : QueryError)
  | build (e : BuildError QueryError)

def SearchError.message : SearchError → String
  | query e => e.message
  | build e => e.message QueryError.message

structure SearchRun where
  result : Except SearchError Select
  cache : IntentCache
  log : List LogRecord

def buildQuery (cache : IntentCache) (instance_ : Instance) (graph : EntityGraph) (entity : String)
    (eager : Bool) : SearchRun :=
  match Query.start? graph entity with
  | .error e => ⟨.error (.query e), cache, []⟩
  | .ok q =>
      let run := build (sqlEngine q.rootPosition) cache instance_ eager q
      ⟨(run.result.mapError .build).map run.engine.select, run.cache, run.log⟩

end CatalogSearch.Sql
