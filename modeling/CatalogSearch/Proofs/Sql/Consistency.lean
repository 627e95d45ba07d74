import CatalogSearch.Proofs.Sql.Operations

/-!
# Graphs of consistent entities

A list of entities makes a graph if their names are distinct and every relationship leads from a
column of its owner to a column of an entity of the list; else it is refused for its first violation.
Main statement: `graphs_of_consistent_entities`.  The order of the list decides about the violation
that is named and about nothing else, and from any entity of a graph every chain of its relationships
can be joined.
-/

set_option autoImplicit false

namespace CatalogSearch.Sql

/-! ## Consistency and its violations -/

/-- The relationship leads from a column of its owner to a column of an entity. -/
def Linked (entities : List Entity) (owner : Entity) (r : Relationship) : Prop :=
  ∃ target ∈ entities, target.name = r.target ∧ r.localColumn ∈ owner.columns ∧
    r.remoteColumn ∈ target.columns

structure Consistent (entities : List Entity) : Prop where
  distinct : (entities.map Entity.name).Nodup
  linked : ∀ owner ∈ entities, ∀ entry ∈ owner.relationships, Linked entities owner entry.2

/-- Why a relationship is refused: for its target, else for its local column, else for its remote
column. -/
inductive Violates (entities : List Entity) (owner : Entity) (r : Relationship) :
    SchemaError → Prop where
  | target (missing : ∀ e ∈ entities, e.name ≠ r.target) :
      Violates entities owner r (.unknownEntity r.target)
  | localColumn {target : Entity} (mem : target ∈ entities) (named : target.name = r.target)
      (missing : r.localColumn ∉ owner.columns) :
      Violates entities owner r (.unknownAttribute owner.name r.localColumn)
  | remoteColumn {target : Entity} (mem : target ∈ entities) (named : target.name = r.target)
      (found : r.localColumn ∈ owner.columns) (missing : r.remoteColumn ∉ target.columns) :
      Violates entities owner r (.unknownAttribute target.name r.remoteColumn)

/-- Why a list of entities is refused: for the first name that an earlier entity has, or, where the
names are distinct, for the first relationship that leads nowhere, entity by entity. -/
inductive FirstViolation (entities : List Entity) : SchemaError → Prop where
  | repeated {before after : List Entity} {e : Entity} (split : entities = before ++ e :: after)
      (distinct : (before.map Entity.name).Nodup) (again : e.name ∈ before.map Entity.name) :
      FirstViolation entities (.duplicateEntity e.name)
  | unlinked {before after : List Entity} {owner : Entity}
      {earlier later : List (String × Relationship)} {entry : String × Relationship}
      {x : SchemaError} (distinct : (entities.map Entity.name).Nodup)
      (split : entities = before ++ owner :: after)
      (before_linked : ∀ e ∈ before, ∀ other ∈ e.relationships, Linked entities e other.2)
      (split' : owner.relationships = earlier ++ entry :: later)
      (earlier_linked : ∀ other ∈ earlier, Linked entities owner other.2)
      (violates : Violates entities owner entry.2 x) : FirstViolation entities x

/-! ## Distinct names -/

theorem checkDistinct_cons_of_mem {seen : List String} {e : Entity} (h : e.name ∈ seen)
    (rest : List Entity) :
    EntityGraph.checkDistinct seen (e :: rest) = .error (.duplicateEntity e.name) := by
  rw [EntityGraph.checkDistinct, if_pos (by simpa using h)]

theorem checkDistinct_cons_of_not_mem {seen : List String} {e : Entity} (h : e.name ∉ seen)
    (rest : List Entity) :
    EntityGraph.checkDistinct seen (e :: rest) =
      EntityGraph.checkDistinct (e.name :: seen) rest := by
  rw [EntityGraph.checkDistinct, if_neg (by simpa using h)]

theorem checkDistinct_eq_ok : ∀ (entities : List Entity) (seen : List String),
    EntityGraph.checkDistinct seen entities = .ok () ↔
      (entities.map Entity.name).Nodup ∧ ∀ e ∈ entities, e.name ∉ seen := by
  intro entities
  induction entities with
  | nil => intro seen; simp [EntityGraph.checkDistinct]
  | cons e rest ih =>
      intro seen
      rw [List.map_cons, List.nodup_cons, List.forall_mem_cons]
      by_cases hseen : e.name ∈ seen
      · rw [checkDistinct_cons_of_mem hseen]
        simp [hseen]
      · rw [checkDistinct_cons_of_not_mem hseen, ih]
        simp only [List.mem_cons, not_or, List.mem_map, not_exists, not_and, hseen,
          not_false_eq_true, true_and]
        constructor
        · rintro ⟨distinct, fresh⟩
          exact ⟨⟨fun other hother => (fresh other hother).1, distinct⟩,
            fun other hother => (fresh other hother).2⟩
        · rintro ⟨⟨apart, distinct⟩, fresh⟩
          exact ⟨distinct, fun other hother => ⟨apart other hother, fresh other hother⟩⟩

theorem checkDistinct_eq_error {x : SchemaError} : ∀ (entities : List Entity) (seen : List String),
    EntityGraph.checkDistinct seen entities = .error x ↔
      ∃ before e after, entities = before ++ e :: after ∧
        EntityGraph.checkDistinct seen before = .ok () ∧
        (e.name ∈ seen ∨ e.name ∈ before.map Entity.name) ∧ x = .duplicateEntity e.name := by
  intro entities
  induction entities with
  | nil => intro seen; simp [EntityGraph.checkDistinct]
  | cons e rest ih =>
      intro seen
      -- The name counts as seen for the rest, so that `seen` grows along the induction.
      by_cases hseen : e.name ∈ seen
      · rw [checkDistinct_cons_of_mem hseen]
        constructor
        · intro h
          exact ⟨[], e, rest, rfl, rfl, Or.inl hseen, (Except.error.inj h).symm⟩
        · rintro ⟨before, again, after, hsplit, passed, _, rfl⟩
          cases before with
          | nil =>
              obtain ⟨rfl, _⟩ := List.cons.inj hsplit
              rfl
          | cons first before =>
              obtain ⟨rfl, _⟩ := List.cons.inj hsplit
              rw [checkDistinct_cons_of_mem hseen] at passed
              cases passed
      · rw [checkDistinct_cons_of_not_mem hseen, ih]
        constructor
        · rintro ⟨before, again, after, rfl, passed, hagain, rfl⟩
          refine ⟨e :: before, again, after, rfl, ?_, ?_, rfl⟩
          · rwa [checkDistinct_cons_of_not_mem hseen]
          · rwa [List.map_cons, List.mem_cons, or_left_comm, ← or_assoc, ← List.mem_cons]
        · rintro ⟨before, again, after, hsplit, passed, hagain, rfl⟩
          cases before with
          | nil =>
              obtain ⟨rfl, _⟩ := List.cons.inj hsplit
              exact absurd hagain (by simpa using hseen)
          | cons first before =>
              obtain ⟨rfl, rfl⟩ := List.cons.inj hsplit
              rw [checkDistinct_cons_of_not_mem hseen] at passed
              refine ⟨before, again, after, rfl, passed, ?_, rfl⟩
              rwa [List.map_cons, List.mem_cons, or_left_comm, ← or_assoc, ← List.mem_cons] at hagain

/-! ## Links -/

namespace EntityGraph

variable {g : EntityGraph}

theorem entity?_eq_error {name : String} {x : SchemaError} :
    g.entity? name = .error x ↔ (∀ e ∈ g.entities, e.name ≠ name) ∧ x = .unknownEntity name := by
  rcases hfind : g.find? name with _ | e
  · have missing : ∀ e ∈ g.entities, e.name ≠ name := by
      simpa using List.find?_eq_none.mp hfind
    rw [entity?, hfind]
    constructor
    · intro h
      exact ⟨missing, (Except.error.inj h).symm⟩
    · rintro ⟨_, rfl⟩
      rfl
  · have named : e.name = name := by simpa using List.find?_some hfind
    have mem := List.mem_of_find?_eq_some hfind
    simp only [entity?, hfind, reduceCtorEq, false_iff, not_and]
    exact fun missing => absurd named (missing e mem)

theorem column?_eq_error {e : Entity} {name : String} {x : SchemaError} :
    e.column? name = .error x ↔ name ∉ e.columns ∧ x = .unknownAttribute e.name name := by
  simp only [Entity.column?, List.contains_iff_mem]
  split
  · rename_i hmem
    simp [hmem]
  · rename_i hmem
    simp [hmem, eq_comm]

variable (distinct : (g.entities.map Entity.name).Nodup)
include distinct

theorem entity?_eq_ok_iff_mem {name : String} {e : Entity} :
    g.entity? name = .ok e ↔ e ∈ g.entities ∧ e.name = name := by
  constructor
  · intro h
    exact ⟨mem_of_entity?_eq_ok h, by simpa using List.find?_some (entity?_eq_ok.mp h)⟩
  · rintro ⟨mem, named⟩
    rcases hfound : g.entity? name with x | found
    · exact absurd named ((entity?_eq_error.mp hfound).1 e mem)
    · have mem' := mem_of_entity?_eq_ok hfound
      have named' : found.name = name := by simpa using List.find?_some (entity?_eq_ok.mp hfound)
      rw [List.inj_on_of_nodup_map distinct mem' mem (named'.trans named.symm)]

variable {owner : Entity} {r : Relationship}

theorem checkLink_eq_ok : g.checkLink owner r = .ok () ↔ Linked g.entities owner r := by
  constructor
  · intro h
    obtain ⟨target, found, localColumn, remoteColumn⟩ := link_of_checkLink h
    obtain ⟨mem, named⟩ := (entity?_eq_ok_iff_mem distinct).mp found
    exact ⟨target, mem, named, localColumn, remoteColumn⟩
  · rintro ⟨target, mem, named, localColumn, remoteColumn⟩
    have found := (entity?_eq_ok_iff_mem distinct).mpr ⟨mem, named⟩
    exact except_bind_eq_ok.mpr ⟨target, found, except_bind_eq_ok.mpr
      ⟨_, column?_eq_ok.mpr ⟨rfl, localColumn⟩, except_bind_eq_ok.mpr
        ⟨_, column?_eq_ok.mpr ⟨rfl, remoteColumn⟩, rfl⟩⟩⟩

theorem checkLink_eq_error {x : SchemaError} :
    g.checkLink owner r = .error x ↔ Violates g.entities owner r x := by
  simp only [checkLink, except_bind_eq_error, entity?_eq_error, entity?_eq_ok_iff_mem distinct,
    column?_eq_error, column?_eq_ok]
  constructor
  · rintro (⟨missing, rfl⟩ | ⟨target, ⟨mem, named⟩, h⟩)
    · exact .target missing
    · rcases h with ⟨missing, rfl⟩ | ⟨_, ⟨_, found⟩, h⟩
      · exact .localColumn mem named missing
      · rcases h with ⟨missing, rfl⟩ | ⟨_, _, h⟩
        · exact .remoteColumn mem named found missing
        · cases h
  · intro violates
    cases violates with
    | target missing => exact Or.inl ⟨missing, rfl⟩
    | localColumn mem named missing =>
        exact Or.inr ⟨_, ⟨mem, named⟩, Or.inl ⟨missing, rfl⟩⟩
    | remoteColumn mem named found missing =>
        exact Or.inr ⟨_, ⟨mem, named⟩, Or.inr ⟨_, ⟨rfl, found⟩, Or.inl ⟨missing, rfl⟩⟩⟩

theorem checkLinksOf_eq_error {relationships : List (String × Relationship)} {x : SchemaError} :
    g.checkLinksOf owner relationships = .error x ↔
      ∃ earlier entry later, relationships = earlier ++ entry :: later ∧
        (∀ other ∈ earlier, Linked g.entities owner other.2) ∧
        Violates g.entities owner entry.2 x := by
  simp only [checkLinksOf_eq_forM, forM_eq_error, checkLink_eq_ok distinct,
    checkLink_eq_error distinct]

theorem checkLinks_eq_error {entities : List Entity} {x : SchemaError} :
    g.checkLinks entities = .error x ↔
      ∃ before owner after, entities = before ++ owner :: after ∧
        (∀ e ∈ before, ∀ other ∈ e.relationships, Linked g.entities e other.2) ∧
        ∃ earlier entry later, owner.relationships = earlier ++ entry :: later ∧
          (∀ other ∈ earlier, Linked g.entities owner other.2) ∧
          Violates g.entities owner entry.2 x := by
  simp only [checkLinks_eq_forM, forM_eq_error, checkLinksOf_eq_ok, checkLink_eq_ok distinct,
    checkLinksOf_eq_error distinct]

end EntityGraph

/-! ## Construction -/

theorem ofEntities?_eq_ok {entities : List Entity} {g : EntityGraph} :
    EntityGraph.ofEntities? entities = .ok g ↔ Consistent entities ∧ g = ⟨entities⟩ := by
  constructor
  · intro h
    obtain ⟨_, hdistinct, h⟩ := except_bind_eq_ok.mp h
    obtain ⟨_, hlinks, h⟩ := except_bind_eq_ok.mp h
    obtain rfl := Except.ok.inj h
    have distinct := ((checkDistinct_eq_ok entities []).mp hdistinct).1
    refine ⟨⟨distinct, fun owner howner entry hentry => ?_⟩, rfl⟩
    exact (EntityGraph.checkLink_eq_ok distinct).mp
      (EntityGraph.checkLinks_eq_ok.mp hlinks owner howner entry hentry)
  · rintro ⟨⟨distinct, linked⟩, rfl⟩
    have hdistinct : EntityGraph.checkDistinct [] entities = .ok () :=
      (checkDistinct_eq_ok entities []).mpr ⟨distinct, by simp⟩
    have hlinks : EntityGraph.checkLinks ⟨entities⟩ entities = .ok () := by
      refine EntityGraph.checkLinks_eq_ok.mpr fun owner howner entry hentry => ?_
      exact (EntityGraph.checkLink_eq_ok distinct).mpr (linked owner howner entry hentry)
    exact except_bind_eq_ok.mpr ⟨(), hdistinct, except_bind_eq_ok.mpr ⟨(), hlinks, rfl⟩⟩

theorem exists_ofEntities?_eq_ok {entities : List Entity} :
    (∃ g, EntityGraph.ofEntities? entities = .ok g) ↔ Consistent entities := by
  simp only [ofEntities?_eq_ok, exists_and_left, exists_eq, and_true]

theorem ofEntities?_eq_error {entities : List Entity} {x : SchemaError} :
    EntityGraph.ofEntities? entities = .error x ↔ FirstViolation entities x := by
  constructor
  · intro h
    rcases except_bind_eq_error.mp h with h | ⟨_, hdistinct, h⟩
    · obtain ⟨before, e, after, split, passed, again, rfl⟩ :=
        (checkDistinct_eq_error entities []).mp h
      exact .repeated split ((checkDistinct_eq_ok before []).mp passed).1
        (again.resolve_left (by simp))
    · have distinct := ((checkDistinct_eq_ok entities []).mp hdistinct).1
      rcases except_bind_eq_error.mp h with h | ⟨_, _, h⟩
      · obtain ⟨before, owner, after, split, linked, earlier, entry, later, split', linked',
          violates⟩ := (EntityGraph.checkLinks_eq_error distinct).mp h
        exact .unlinked distinct split linked split' linked' violates
      · cases h
  · intro violation
    cases violation with
    | @repeated before after e split distinct again =>
        have passed := (checkDistinct_eq_ok before []).mpr ⟨distinct, by simp⟩
        exact except_bind_eq_error.mpr (Or.inl ((checkDistinct_eq_error entities []).mpr
          ⟨before, e, after, split, passed, Or.inr again, rfl⟩))
    | unlinked distinct split linked split' linked' violates =>
        have hdistinct := (checkDistinct_eq_ok entities []).mpr ⟨distinct, by simp⟩
        have hlinks : EntityGraph.checkLinks ⟨entities⟩ entities = .error x :=
          (EntityGraph.checkLinks_eq_error distinct).mpr
            ⟨_, _, _, split, linked, _, _, _, split', linked', violates⟩
        exact except_bind_eq_error.mpr
          (Or.inr ⟨(), hdistinct, except_bind_eq_error.mpr (Or.inl hlinks)⟩)

/-! ## The order of the entities -/

section Order

variable {entities permuted : List Entity} (reordered : entities.Perm permuted)
include reordered

theorem Consistent.perm (consistent : Consistent entities) : Consistent permuted where
  distinct := (reordered.map Entity.name).nodup_iff.mp consistent.distinct
  linked := by
    intro owner howner entry hentry
    obtain ⟨target, mem, link⟩ := consistent.linked owner (reordered.mem_iff.mpr howner) entry hentry
    exact ⟨target, reordered.mem_iff.mp mem, link⟩

theorem consistent_perm_iff : Consistent entities ↔ Consistent permuted :=
  ⟨Consistent.perm reordered, Consistent.perm reordered.symm⟩

theorem entity?_perm (distinct : (entities.map Entity.name).Nodup) (name : String) :
    EntityGraph.entity? ⟨permuted⟩ name = EntityGraph.entity? ⟨entities⟩ name := by
  have distinct' : (permuted.map Entity.name).Nodup :=
    (reordered.map Entity.name).nodup_iff.mp distinct
  rcases hfound : EntityGraph.entity? ⟨entities⟩ name with x | e
  · obtain ⟨missing, rfl⟩ := EntityGraph.entity?_eq_error.mp hfound
    exact EntityGraph.entity?_eq_error.mpr
      ⟨fun e he => missing e (reordered.mem_iff.mpr he), rfl⟩
  · obtain ⟨mem, named⟩ := (EntityGraph.entity?_eq_ok_iff_mem distinct).mp hfound
    exact (EntityGraph.entity?_eq_ok_iff_mem distinct').mpr ⟨reordered.mem_iff.mp mem, named⟩

end Order

theorem contains_eq (g : EntityGraph) (name : String) :
    g.contains name = (g.entity? name).toOption.isSome := by
  simp only [EntityGraph.contains, EntityGraph.entity?]
  rcases g.find? name with _ | e <;> rfl

/-! ## Chains of relationships -/

/-- The names are those of relationships, each of an entity that the one before leads to. -/
def Chain (entities : List Entity) : Entity → List String → Prop
  | _, [] => True
  | e, name :: rest => ∃ r, e.relationships.lookup name = some r ∧
      ∀ target ∈ entities, target.name = r.target → Chain entities target rest

def Query.joinAll (p : Position) : List String → QueryCall Position
  | [] => Call.pure p
  | name :: rest => Call.bind (Query.join p name) fun next => Query.joinAll next rest

theorem joinAll_of_chain {g : EntityGraph} (consistent : Consistent g.entities) :
    ∀ (names : List String) {q : Query} {p : Position}, q.graph = g → p.entity ∈ g.entities →
      Chain g.entities p.entity names →
      ∃ position q', Query.joinAll p names q = (.ok position, q') ∧
        g.entityAt? p.entity names = some position.entity := by
  intro names
  induction names with
  | nil => intro q p _ _ _; exact ⟨p, q, rfl, rfl⟩
  | cons name rest ih =>
      intro q p hgraph hp chain
      obtain ⟨r, hr, hrest⟩ := chain
      have known := EntityGraph.relationship?_eq_ok.mpr hr
      obtain ⟨target, mem, named, _⟩ := consistent.linked p.entity hp (name, r) (mem_of_lookup hr)
      have found := (EntityGraph.entity?_eq_ok_iff_mem consistent.distinct).mpr ⟨mem, named⟩
      -- The next position is again at an entity of the graph, and the graph stays that of the query.
      let next := q.nextPosition target .joined
      have hjoin : Query.join p name q = (.ok next, q.withJoin p.qualifier r next) := by
        rw [join_of_known known, leftJoin_of_found (hgraph ▸ found)]
      obtain ⟨position, q', hjoins, hat⟩ := ih (q := q.withJoin p.qualifier r next) (p := next)
        hgraph mem (hrest target mem named)
      refine ⟨position, q', ?_, ?_⟩
      · rw [Query.joinAll, Call.bind, hjoin]
        exact hjoins
      · rw [EntityGraph.entityAt?, EntityGraph.step?_eq_some.mpr ⟨known, found⟩]
        exact hat

/-- From any entity a query can start, and from any position of a query every chain of relationships
can be joined, to the entity that the chain leads to. -/
structure Joinable (entities : List Entity) (g : EntityGraph) : Prop where
  starts : ∀ e ∈ entities, ∃ q, Query.start? g e.name = .ok q ∧ q.graph = g ∧ q.root = e
  joins : ∀ (q : Query) (p : Position) (names : List String), q.graph = g → p.entity ∈ entities →
    Chain entities p.entity names →
    ∃ position q', Query.joinAll p names q = (.ok position, q') ∧
      g.entityAt? p.entity names = some position.entity

theorem joinable {entities : List Entity} (consistent : Consistent entities) :
    Joinable entities ⟨entities⟩ where
  starts := by
    intro e he
    have found : EntityGraph.entity? ⟨entities⟩ e.name = .ok e :=
      (EntityGraph.entity?_eq_ok_iff_mem consistent.distinct).mpr ⟨he, rfl⟩
    exact ⟨_, start?_eq_ok.mpr ⟨e, found, rfl⟩, rfl, rfl⟩
  joins q p names hgraph hp chain := joinAll_of_chain consistent names hgraph hp chain

/-- Entities make a graph exactly if they are consistent, and are refused for their first violation
else.  Their order changes neither that nor a lookup, and the graph lets every chain be joined. -/
theorem graphs_of_consistent_entities (entities : List Entity) :
    ((∃ g, EntityGraph.ofEntities? entities = .ok g) ↔ Consistent entities) ∧
    (∀ x, EntityGraph.ofEntities? entities = .error x ↔ FirstViolation entities x) ∧
    (∀ permuted, entities.Perm permuted →
      ((∃ g, EntityGraph.ofEntities? permuted = .ok g) ↔
        ∃ g, EntityGraph.ofEntities? entities = .ok g) ∧
      ∀ g g', EntityGraph.ofEntities? entities = .ok g →
        EntityGraph.ofEntities? permuted = .ok g' →
        ∀ name, g'.entity? name = g.entity? name ∧ g'.contains name = g.contains name) ∧
    ∀ g, EntityGraph.ofEntities? entities = .ok g → Joinable entities g := by
  refine ⟨exists_ofEntities?_eq_ok, fun x => ofEntities?_eq_error, ?_, ?_⟩
  · intro permuted perm
    refine ⟨?_, ?_⟩
    · rw [exists_ofEntities?_eq_ok, exists_ofEntities?_eq_ok, consistent_perm_iff perm]
    · intro g g' hg hg' name
      obtain ⟨consistent, rfl⟩ := ofEntities?_eq_ok.mp hg
      obtain ⟨_, rfl⟩ := ofEntities?_eq_ok.mp hg'
      have hlookup := entity?_perm perm consistent.distinct name
      exact ⟨hlookup, by rw [contains_eq, contains_eq, hlookup]⟩
  · intro g hg
    obtain ⟨consistent, rfl⟩ := ofEntities?_eq_ok.mp hg
    exact joinable consistent

/-- An entity that refers to itself, and to one that refers back. -/
def division : Entity :=
  ⟨"division", "divisions", ["id", "parent_id", "head_id"],
    [("parent", ⟨"parent", "division", "parent_id", "id", false⟩),
      ("head", ⟨"head", "person", "head_id", "id", false⟩)]⟩

def person : Entity :=
  ⟨"person", "people", ["id", "division_id"],
    [("division", ⟨"division", "division", "division_id", "id", false⟩)]⟩

theorem graphs_of_consistent_entities_division :
    FirstViolation [division] (.unknownEntity "person") ∧
    ∃ g, EntityGraph.ofEntities? [person, division] = .ok g ∧
      ∃ position q', Query.joinAll ⟨division, .root⟩ ["parent", "head", "division"]
        ⟨g, division, [], [], false, 0⟩ = (.ok position, q') ∧ position.entity = division := by
  obtain ⟨_, refused, _, _⟩ := graphs_of_consistent_entities [division]
  obtain ⟨_, _, reorders, _⟩ := graphs_of_consistent_entities [division, person]
  obtain ⟨_, _, _, joins⟩ := graphs_of_consistent_entities [person, division]
  obtain ⟨g, hg⟩ := (reorders [person, division] (.swap _ _ _)).1.mpr ⟨_, rfl⟩
  obtain rfl : g = ⟨[person, division]⟩ := (Except.ok.inj hg).symm
  have chain : Chain [person, division] division ["parent", "head", "division"] := by
    simp [Chain, division, person, List.lookup_cons]
  obtain ⟨position, q', hjoin, hat⟩ := (joins _ hg).joins ⟨_, division, [], [], false, 0⟩
    ⟨division, .root⟩ _ rfl (by simp) chain
  exact ⟨(refused _).mp rfl, _, hg, position, q', hjoin, (Option.some.inj hat).symm⟩

end CatalogSearch.Sql
