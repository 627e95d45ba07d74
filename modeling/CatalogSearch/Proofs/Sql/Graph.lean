import CatalogSearch.Sql.Query
import CatalogSearch.Proofs.Call
import CatalogSearch.Proofs.Criteria.Trails
import CatalogSearch.Proofs.Keyed

/-!
# Constructed graphs

`EntityGraph.Constructed` holds of the graphs that checked entities make.  Every relationship of
such a graph leads to an entity of it, from a column of its owner to a column of its target
(`Constructed.link`).  `entityAt?` follows a trail through a graph, and a path resolves if its
relationships lead to an entity that has its attribute.
-/

set_option autoImplicit false

namespace CatalogSearch.Sql

open Criteria

/-- Made of entities that were made, and found consistent. -/
def EntityGraph.Constructed (g : EntityGraph) : Prop :=
  ∃ entities : List Entity,
    (∀ e ∈ entities, ∃ name table columns relationships,
      Entity.make? name table columns relationships = .ok e) ∧
    EntityGraph.ofEntities? entities = .ok g

theorem EntityGraph.constructed_of_checks {g : EntityGraph}
    (made : ∀ e ∈ g.entities, Entity.make? e.name e.table e.columns e.relationships = .ok e)
    (consistent : EntityGraph.ofEntities? g.entities = .ok g) : g.Constructed :=
  ⟨g.entities, fun e he => ⟨e.name, e.table, e.columns, e.relationships, made e he⟩, consistent⟩

namespace EntityGraph

variable {g : EntityGraph}

theorem entity?_eq_ok {name : String} {e : Entity} :
    g.entity? name = .ok e ↔ g.find? name = some e := by
  simp only [entity?]
  rcases g.find? name with _ | found <;> simp

theorem mem_of_entity?_eq_ok {name : String} {e : Entity} (h : g.entity? name = .ok e) :
    e ∈ g.entities :=
  List.mem_of_find?_eq_some (entity?_eq_ok.mp h)

theorem column?_eq_ok {e : Entity} {name column : String} :
    e.column? name = .ok column ↔ column = name ∧ name ∈ e.columns := by
  simp only [Entity.column?, List.contains_iff_mem]
  split
  · rename_i hmem
    simp [hmem, eq_comm]
  · rename_i hmem
    simp [hmem]

theorem relationship?_eq_ok {e : Entity} {key : String} {r : Relationship} :
    e.relationship? key = .ok r ↔ e.relationships.lookup key = some r := by
  simp only [Entity.relationship?]
  rcases e.relationships.lookup key with _ | found <;> simp

/-- What a relationship of a graph leads to. -/
structure Link (g : EntityGraph) (owner : Entity) (r : Relationship) (target : Entity) : Prop where
  found : g.entity? r.target = .ok target
  localColumn : r.localColumn ∈ owner.columns
  remoteColumn : r.remoteColumn ∈ target.columns

theorem link_of_checkLink {owner : Entity} {r : Relationship} (h : g.checkLink owner r = .ok ()) :
    ∃ target, Link g owner r target := by
  obtain ⟨target, htarget, h⟩ := except_bind_eq_ok.mp h
  obtain ⟨_, hlocal, h⟩ := except_bind_eq_ok.mp h
  obtain ⟨_, hremote, _⟩ := except_bind_eq_ok.mp h
  exact ⟨target, htarget, (column?_eq_ok.mp hlocal).2, (column?_eq_ok.mp hremote).2⟩

theorem checkLinksOf_eq_forM (owner : Entity) : ∀ relationships : List (String × Relationship),
    g.checkLinksOf owner relationships =
      relationships.forM fun entry => g.checkLink owner entry.2 := by
  intro relationships
  induction relationships with
  | nil => rfl
  | cons entry rest ih => rw [checkLinksOf, ih]; rfl

theorem checkLinks_eq_forM : ∀ entities : List Entity,
    g.checkLinks entities = entities.forM fun e => g.checkLinksOf e e.relationships := by
  intro entities
  induction entities with
  | nil => rfl
  | cons e rest ih => rw [checkLinks, ih]; rfl

theorem checkLinksOf_eq_ok {owner : Entity} {relationships : List (String × Relationship)} :
    g.checkLinksOf owner relationships = .ok () ↔
      ∀ entry ∈ relationships, g.checkLink owner entry.2 = .ok () := by
  rw [checkLinksOf_eq_forM, forM_eq_ok]

theorem checkLinks_eq_ok {entities : List Entity} : g.checkLinks entities = .ok () ↔
    ∀ e ∈ entities, ∀ entry ∈ e.relationships, g.checkLink e entry.2 = .ok () := by
  simp only [checkLinks_eq_forM, forM_eq_ok, checkLinksOf_eq_ok]

theorem Constructed.link (hg : g.Constructed) {owner : Entity} (howner : owner ∈ g.entities)
    {key : String} {r : Relationship} (h : owner.relationships.lookup key = some r) :
    ∃ target, Link g owner r target := by
  obtain ⟨entities, _, hof⟩ := hg
  obtain ⟨_, _, hof⟩ := except_bind_eq_ok.mp hof
  obtain ⟨_, hlinks, hof⟩ := except_bind_eq_ok.mp hof
  obtain rfl := Except.ok.inj hof
  exact link_of_checkLink (checkLinks_eq_ok.mp hlinks owner howner (key, r) (mem_of_lookup h))

def step? (g : EntityGraph) (e : Entity) (name : String) : Option (Relationship × Entity) :=
  match e.relationships.lookup name with
  | none => none
  | some via => (g.find? via.target).map fun target => (via, target)

def entityAt? (g : EntityGraph) (e : Entity) : List String → Option Entity
  | [] => some e
  | name :: rest => (g.step? e name).bind fun next => g.entityAt? next.2 rest

def linkAt? (g : EntityGraph) (root : Entity) (trail : List String) :
    Option (Relationship × Entity) :=
  (g.entityAt? root trail.dropLast).bind fun owner => g.step? owner (trail.getLast?.getD "")

/-- The relationships of a path lead from the root to an entity with its attribute. -/
def Resolves (g : EntityGraph) (root : Entity) (path : String) : Prop :=
  ∃ e, g.entityAt? root (relationshipsOf path) = some e ∧ attributeOf path ∈ e.columns

theorem step?_eq_some {e target : Entity} {name : String} {via : Relationship} :
    g.step? e name = some (via, target) ↔
      e.relationship? name = .ok via ∧ g.entity? via.target = .ok target := by
  simp only [step?, relationship?_eq_ok, entity?_eq_ok]
  rcases e.relationships.lookup name with _ | r
  · simp
  · simp only [Option.map_eq_some_iff, Prod.mk.injEq, Option.some.injEq]
    constructor
    · rintro ⟨found, hfound, rfl, rfl⟩
      exact ⟨rfl, hfound⟩
    · rintro ⟨rfl, hfound⟩
      exact ⟨target, hfound, rfl, rfl⟩

theorem entityAt?_append (more : List String) : ∀ (trail : List String) (e : Entity),
    g.entityAt? e (trail ++ more) = (g.entityAt? e trail).bind fun e' => g.entityAt? e' more := by
  intro trail
  induction trail with
  | nil => intro e; rfl
  | cons name rest ih =>
      intro e
      simp only [List.cons_append, entityAt?, Option.bind_assoc, ih]

theorem mem_of_entityAt? : ∀ (trail : List String) {root e : Entity}, root ∈ g.entities →
    g.entityAt? root trail = some e → e ∈ g.entities := by
  intro trail
  induction trail with
  | nil =>
      intro root e hroot h
      obtain rfl := Option.some.inj h
      exact hroot
  | cons name rest ih =>
      intro root e _ h
      obtain ⟨⟨via, target⟩, hstep, hrest⟩ := Option.bind_eq_some_iff.mp h
      exact ih (mem_of_entity?_eq_ok (step?_eq_some.mp hstep).2) hrest

theorem entityAt?_append_singleton (root : Entity) (trail : List String) (name : String) :
    g.entityAt? root (trail ++ [name]) =
      (g.linkAt? root (trail ++ [name])).map Prod.snd := by
  simp only [entityAt?_append, linkAt?, List.dropLast_concat, List.getLast?_concat,
    Option.getD_some, entityAt?]
  rcases g.entityAt? root trail with _ | owner
  · rfl
  · rcases hstep : g.step? owner name with _ | next <;> simp [hstep]

end EntityGraph

end CatalogSearch.Sql
