import CatalogSearch.Keyed
import CatalogSearch.Text.Identifier
import CatalogSearch.Text.Quoted

/-!
# Entity graphs

Entities with their tables and columns, linked by relationships `owner.local = target.remote`.
Every name that may reach a statement comes from such a graph and is an identifier.  A graph has
each entity name once, and each of its relationships leads from a column of its owner to a column
of an entity of the graph, in either direction and in cycles.
-/

set_option autoImplicit false

namespace CatalogSearch.Sql

inductive NameKind where
  | relationship
  | entity
  | column
  | table
  deriving DecidableEq, Repr

def NameKind.text : NameKind → String
  | relationship => "relationship"
  | entity => "entity"
  | column => "column"
  | table => "table"

inductive SchemaError where
  | invalidName (kind : NameKind) (name : String)
  | duplicateEntity (name : String)
  | unknownEntity (name : String)
  | unknownAttribute (entity name : String)
  | unknownRelationship (entity name : String)
  deriving DecidableEq, Repr

def SchemaError.message : SchemaError → String
  | invalidName kind name => "Invalid " ++ kind.text ++ " identifier: " ++ Text.quoted name
  | duplicateEntity name => "Duplicate entity: " ++ name
  | unknownEntity name => "Unknown entity: " ++ name
  | unknownAttribute entity name => "Unknown attribute " ++ entity ++ "." ++ name
  | unknownRelationship entity name => "Unknown relationship " ++ entity ++ "." ++ name

def checkName (kind : NameKind) (name : String) : Except SchemaError Unit :=
  if Text.isIdentifier name then .ok () else .error (.invalidName kind name)

def checkNames (kind : NameKind) : List String → Except SchemaError Unit
  | [] => .ok ()
  | name :: rest => do
      checkName kind name
      checkNames kind rest

structure Relationship where
  name : String
  target : String
  localColumn : String
  remoteColumn : String
  toMany : Bool
  deriving DecidableEq, Repr

/-- Relationships stand under keys, which need not be their names. -/
structure Entity where
  name : String
  table : String
  columns : List String
  relationships : List (String × Relationship)
  deriving DecidableEq, Repr

def Relationship.check (r : Relationship) : Except SchemaError Unit := do
  checkName .relationship r.name
  checkName .entity r.target
  checkName .column r.localColumn
  checkName .column r.remoteColumn

def checkRelationships : List (String × Relationship) → Except SchemaError Unit
  | [] => .ok ()
  | (_, r) :: rest => do
      r.check
      checkRelationships rest

def Entity.make? (name table : String) (columns : List String)
    (relationships : List (String × Relationship)) : Except SchemaError Entity := do
  checkRelationships relationships
  checkName .entity name
  checkName .table table
  checkNames .column columns
  return ⟨name, table, columns, lastByKey relationships⟩

def Entity.column? (e : Entity) (name : String) : Except SchemaError String :=
  if e.columns.contains name then .ok name else .error (.unknownAttribute e.name name)

def Entity.relationship? (e : Entity) (key : String) : Except SchemaError Relationship :=
  match e.relationships.lookup key with
  | some r => .ok r
  | none => .error (.unknownRelationship e.name key)

structure EntityGraph where
  entities : List Entity
  deriving DecidableEq, Repr

namespace EntityGraph

def find? (g : EntityGraph) (name : String) : Option Entity := g.entities.find? (·.name = name)

def contains (g : EntityGraph) (name : String) : Bool := (g.find? name).isSome

def entity? (g : EntityGraph) (name : String) : Except SchemaError Entity :=
  match g.find? name with
  | some e => .ok e
  | none => .error (.unknownEntity name)

/-- The first name that an earlier entity has, `seen` being the names before the list. -/
def checkDistinct (seen : List String) : List Entity → Except SchemaError Unit
  | [] => .ok ()
  | e :: rest =>
      if seen.contains e.name then .error (.duplicateEntity e.name)
      else checkDistinct (e.name :: seen) rest

def checkLink (g : EntityGraph) (owner : Entity) (r : Relationship) : Except SchemaError Unit := do
  let target ← g.entity? r.target
  let _ ← owner.column? r.localColumn
  let _ ← target.column? r.remoteColumn

def checkLinksOf (g : EntityGraph) (owner : Entity) :
    List (String × Relationship) → Except SchemaError Unit
  | [] => .ok ()
  | (_, r) :: rest => do
      g.checkLink owner r
      g.checkLinksOf owner rest

def checkLinks (g : EntityGraph) : List Entity → Except SchemaError Unit
  | [] => .ok ()
  | e :: rest => do
      g.checkLinksOf e e.relationships
      g.checkLinks rest

/-- The graph of the given entities, or the first violation: a repeated name, or else the first
relationship with an unknown target, local column or remote column. -/
def ofEntities? (entities : List Entity) : Except SchemaError EntityGraph := do
  checkDistinct [] entities
  checkLinks ⟨entities⟩ entities
  return ⟨entities⟩

end EntityGraph

end CatalogSearch.Sql
