import CatalogSearch.Call
import CatalogSearch.Sql.Condition
import CatalogSearch.Sql.Schema

/-!
# Queries over an entity graph

A query selects rows of a root entity.  Its operations are calls: one that fails leaves behind what
it had done to the query by then.  Joins and fetches number their aliases from one counter.  Only
to-one relationships can be fetched, so that selecting the fetched columns adds no row.
-/

set_option autoImplicit false

namespace CatalogSearch.Sql

open Criteria

/-- An entity as it occurs in a statement, under an alias. -/
structure Position where
  entity : Entity
  qualifier : Alias
  deriving DecidableEq, Repr

structure LeftJoin where
  position : Position
  parent : Alias
  via : Relationship
  deriving DecidableEq, Repr

def LeftJoin.text (j : LeftJoin) : String :=
  "LEFT JOIN " ++ j.position.entity.table ++ " " ++ j.position.qualifier.text ++
    " ON " ++ (Column.mk j.position.qualifier j.via.remoteColumn).text ++
    " = " ++ (Column.mk j.parent j.via.localColumn).text

inductive QueryError where
  | schema (e : SchemaError)
  | alreadyFetched (relationship : String)
  | toManyFetch (relationship : String)
  | emptyGroup (connective : Connective)
  | emptyMembership
  deriving DecidableEq, Repr

def QueryError.message : QueryError → String
  | schema e => e.message
  | alreadyFetched relationship => "Relationship already fetched: " ++ relationship
  | toManyFetch relationship => "Cannot eagerly fetch to-many relationship: " ++ relationship
  | emptyGroup connective => connective.text ++ " requires at least one expression"
  | emptyMembership => "IN requires at least one value"

structure Query where
  graph : EntityGraph
  root : Entity
  joins : List LeftJoin
  fetched : List (String × Position)
  distinct : Bool
  lastAlias : Nat
  deriving DecidableEq, Repr

abbrev QueryCall (α : Type) : Type := Call Query QueryError α

/-- A value of the select list; a fetched column is labelled by its relationship and its name. -/
structure SelectItem where
  column : Column
  label : Option String
  deriving DecidableEq, Repr

def SelectItem.text (i : SelectItem) : String :=
  match i.label with
  | none => i.column.text
  | some label => i.column.text ++ " AS " ++ label

structure Select where
  distinct : Bool
  items : List SelectItem
  from_ : Position
  joins : List LeftJoin
  condition : Condition

namespace Query

def start? (graph : EntityGraph) (entity : String) : Except QueryError Query :=
  match graph.entity? entity with
  | .ok root => .ok ⟨graph, root, [], [], false, 0⟩
  | .error e => .error (.schema e)

def rootPosition (q : Query) : Position := ⟨q.root, .root⟩

def takeAlias (q : Query) : Query := { q with lastAlias := q.lastAlias + 1 }

/-- Joins the target of a relationship.  The number of its alias is taken before the target is
looked up. -/
def leftJoin (parent : Position) (via : Relationship) (number : Nat → Alias) :
    QueryCall Position := fun q =>
  let q := q.takeAlias
  match q.graph.entity? via.target with
  | .error e => (.error (.schema e), q)
  | .ok entity =>
      let position : Position := ⟨entity, number q.lastAlias⟩
      (.ok position, { q with joins := q.joins ++ [⟨position, parent.qualifier, via⟩] })

def join (parent : Position) (relationship : String) : QueryCall Position :=
  match parent.entity.relationship? relationship with
  | .error e => Call.fail (.schema e)
  | .ok via => leftJoin parent via .joined

def noteFetch (relationship : String) (position : Position) : QueryCall Unit := fun q =>
  (.ok (), { q with fetched := put relationship position q.fetched })

def fetch (relationship : String) : QueryCall Unit := fun q =>
  if (q.fetched.lookup relationship).isSome then (.error (.alreadyFetched relationship), q)
  else
    match q.root.relationship? relationship with
    | .error e => (.error (.schema e), q)
    | .ok via =>
        if via.toMany then (.error (.toManyFetch relationship), q)
        else Call.bind (leftJoin q.rootPosition via .fetched) (noteFetch relationship) q

def askDistinct : QueryCall Unit := fun q => (.ok (), { q with distinct := true })

def fetchedItems (relationship : String) (position : Position) : List SelectItem :=
  position.entity.columns.map fun name =>
    ⟨⟨position.qualifier, name⟩, some (relationship ++ "__" ++ name)⟩

def items (q : Query) : List SelectItem :=
  (q.root.columns.map fun name => ⟨⟨.root, name⟩, none⟩) ++
    q.fetched.flatMap fun f => fetchedItems f.1 f.2

def select (q : Query) (condition : Condition) : Select :=
  ⟨q.distinct, q.items, q.rootPosition, q.joins, condition⟩

end Query

def Position.column? (p : Position) (name : String) : Except SchemaError Column := do
  let name ← p.entity.column? name
  return ⟨p.qualifier, name⟩

def Column.compare? (c : Column) : Comparison → Except QueryError Condition
  | .oneOf [] => .error .emptyMembership
  | comparison => .ok (.test c comparison)

def Condition.group? (connective : Connective) : List Condition → Except QueryError Condition
  | [] => .error (.emptyGroup connective)
  | [c] => .ok c
  | several => .ok (.group connective several)

namespace Select

def whereText (c : Condition) : List String := if c.isTruth then [] else ["WHERE " ++ c.text]

def text (s : Select) : String :=
  joined " "
    ([if s.distinct then "SELECT DISTINCT" else "SELECT",
        joined ", " (s.items.map SelectItem.text),
        "FROM " ++ s.from_.entity.table ++ " " ++ s.from_.qualifier.text] ++
      s.joins.map LeftJoin.text ++ whereText s.condition)

def parameters (s : Select) : List Value := s.condition.parameters

end Select

end CatalogSearch.Sql
