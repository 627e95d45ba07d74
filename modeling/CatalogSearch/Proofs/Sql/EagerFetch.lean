import CatalogSearch.Proofs.Criteria.Correspondence
import CatalogSearch.Catalog.Search
import CatalogSearch.Proofs.Catalog.Graph
import CatalogSearch.Proofs.Keyed
import CatalogSearch.Proofs.Sql.Graph
import CatalogSearch.Proofs.Sql.Operations
import CatalogSearch.Proofs.Sql.Search

/-!
# Fetching eagerly

A query that fetches eagerly is the plain one with more in it.  `Select.withFetches s fetches` puts
the joins of the fetches before those of `s`, their columns behind those of `s`, moves the numbers
of the other aliases up accordingly, and asks for distinct rows if there is a fetch.  Main
statement: `eager_search_adds_fetches`.

Both queries go through the same translation, from states that differ by the fetches only;
`fetchedCorrespondence` is the relation that this difference keeps.
-/

set_option autoImplicit false

namespace CatalogSearch.Sql

open Criteria

/-! ## Moving aliases -/

def Alias.shift (k : Nat) : Alias → Alias
  | .joined number => .joined (number + k)
  | qualifier => qualifier

def Column.shift (k : Nat) (c : Column) : Column := ⟨c.qualifier.shift k, c.name⟩

def Position.shift (k : Nat) (p : Position) : Position := ⟨p.entity, p.qualifier.shift k⟩

def LeftJoin.shift (k : Nat) (j : LeftJoin) : LeftJoin :=
  ⟨j.position.shift k, j.parent.shift k, j.via⟩

mutual

def Condition.shift (k : Nat) : Condition → Condition
  | .truth => .truth
  | .test column comparison => .test (column.shift k) comparison
  | .group connective operands => .group connective (Condition.shiftAll k operands)

def Condition.shiftAll (k : Nat) : List Condition → List Condition
  | [] => []
  | c :: rest => c.shift k :: Condition.shiftAll k rest

end

mutual

theorem Condition.parameters_shift (k : Nat) : ∀ c : Condition,
    (c.shift k).parameters = c.parameters
  | .truth => rfl
  | .test _ _ => rfl
  | .group _ operands => Condition.parametersOf_shiftAll k operands

theorem Condition.parametersOf_shiftAll (k : Nat) : ∀ cs : List Condition,
    Condition.parametersOf (Condition.shiftAll k cs) = Condition.parametersOf cs
  | [] => rfl
  | c :: rest => by
      rw [shiftAll, parametersOf, parametersOf, parameters_shift k c,
        parametersOf_shiftAll k rest]

end

theorem Alias.shift_zero (qualifier : Alias) : qualifier.shift 0 = qualifier := by
  cases qualifier <;> rfl

theorem Column.shift_zero (c : Column) : c.shift 0 = c := by
  simp only [Column.shift, Alias.shift_zero]

theorem LeftJoin.shift_zero (j : LeftJoin) : j.shift 0 = j := by
  simp only [LeftJoin.shift, Position.shift, Alias.shift_zero]

mutual

theorem Condition.shift_zero : ∀ c : Condition, c.shift 0 = c
  | .truth => rfl
  | .test column comparison => by rw [shift, column.shift_zero]
  | .group connective operands => by rw [shift, shiftAll_zero operands]

theorem Condition.shiftAll_zero : ∀ cs : List Condition, Condition.shiftAll 0 cs = cs
  | [] => rfl
  | c :: rest => by rw [shiftAll, shift_zero c, shiftAll_zero rest]

end

/-! ## Fetches -/

structure Fetch where
  name : String
  via : Relationship
  target : Entity

def Fetch.position (f : Fetch) (number : Nat) : Position := ⟨f.target, .fetched number⟩

def Fetch.join (f : Fetch) (number : Nat) : LeftJoin := ⟨f.position number, .root, f.via⟩

/-- The joins of fetches, numbered on from `number`. -/
def fetchJoins (number : Nat) : List Fetch → List LeftJoin
  | [] => []
  | f :: rest => f.join number :: fetchJoins (number + 1) rest

def fetchPositions (number : Nat) : List Fetch → List (String × Position)
  | [] => []
  | f :: rest => (f.name, f.position number) :: fetchPositions (number + 1) rest

/-- The columns of the targets, labelled by the fetches that lead there. -/
def fetchItems (number : Nat) : List Fetch → List SelectItem
  | [] => []
  | f :: rest =>
      (f.target.columns.map fun c => ⟨⟨.fetched number, c⟩, some (f.name ++ "__" ++ c)⟩) ++
        fetchItems (number + 1) rest

/-- The plain query with fetches added. -/
def Select.withFetches (s : Select) (fetches : List Fetch) : Select where
  distinct := !fetches.isEmpty
  items := s.items ++ fetchItems 1 fetches
  from_ := s.from_
  joins := fetchJoins 1 fetches ++ s.joins.map (LeftJoin.shift fetches.length)
  condition := s.condition.shift fetches.length

def Entity.hasToOne (e : Entity) (name : String) : Bool :=
  match e.relationships.lookup name with
  | some via => !via.toMany
  | none => false

/-- A to-one relationship of the root, with the entity that it leads to in the graph. -/
structure Fetch.Of (g : EntityGraph) (root : Entity) (f : Fetch) : Prop where
  via : root.relationships.lookup f.name = some f.via
  toOne : f.via.toMany = false
  target : g.entity? f.via.target = .ok f.target

theorem fetchJoins_append_singleton (f : Fetch) : ∀ (fetches : List Fetch) (number : Nat),
    fetchJoins number (fetches ++ [f]) =
      fetchJoins number fetches ++ [f.join (number + fetches.length)] := by
  intro fetches
  induction fetches with
  | nil => intro number; rfl
  | cons first rest ih =>
      intro number
      simp only [List.cons_append, fetchJoins, ih, List.length_cons]
      rw [Nat.add_assoc, Nat.add_comm 1]

theorem fetchPositions_append_singleton (f : Fetch) : ∀ (fetches : List Fetch) (number : Nat),
    fetchPositions number (fetches ++ [f]) =
      fetchPositions number fetches ++ [(f.name, f.position (number + fetches.length))] := by
  intro fetches
  induction fetches with
  | nil => intro number; rfl
  | cons first rest ih =>
      intro number
      simp only [List.cons_append, fetchPositions, ih, List.length_cons]
      rw [Nat.add_assoc, Nat.add_comm 1]

theorem map_fst_fetchPositions : ∀ (fetches : List Fetch) (number : Nat),
    (fetchPositions number fetches).map Prod.fst = fetches.map Fetch.name := by
  intro fetches
  induction fetches with
  | nil => intro number; rfl
  | cons f rest ih => intro number; simp [fetchPositions, ih]

theorem fetchedItems_fetchPositions : ∀ (fetches : List Fetch) (number : Nat),
    (fetchPositions number fetches).flatMap (fun f => Query.fetchedItems f.1 f.2) =
      fetchItems number fetches := by
  intro fetches
  induction fetches with
  | nil => intro number; rfl
  | cons f rest ih =>
      intro number
      rw [fetchPositions, List.flatMap_cons, ih, fetchItems]
      rfl

theorem Select.withFetches_nil (s : Select) (h : s.distinct = false) : s.withFetches [] = s := by
  obtain ⟨distinct, items, from_, joins, condition⟩ := s
  have hjoins : joins.map (LeftJoin.shift 0) = joins := by
    rw [funext LeftJoin.shift_zero]
    exact List.map_id joins
  simp_all [Select.withFetches, fetchItems, fetchJoins, Condition.shift_zero]

/-! ## Both queries are translated alike -/

def Query.afterFetches (q : Query) (fetches : List Fetch) (distinct : Bool) : Query :=
  ⟨q.graph, q.root, fetchJoins 1 fetches ++ q.joins.map (LeftJoin.shift fetches.length),
    fetchPositions 1 fetches, distinct, q.lastAlias + fetches.length⟩

theorem join_afterFetches (q : Query) (fetches : List Fetch) (distinct : Bool) (p : Position)
    (relationship : String) :
    Query.join (p.shift fetches.length) relationship (q.afterFetches fetches distinct) =
      ((Query.join p relationship q).1.map (Position.shift fetches.length),
        (Query.join p relationship q).2.afterFetches fetches distinct) := by
  rcases known : p.entity.relationship? relationship with x | via
  · have known' : (p.shift fetches.length).entity.relationship? relationship = .error x := known
    rw [join_of_unknown known, join_of_unknown known']
    rfl
  · have known' : (p.shift fetches.length).entity.relationship? relationship = .ok via := known
    rw [join_of_known known, join_of_known known']
    rcases found : q.graph.entity? via.target with x | target
    · have found' : (q.afterFetches fetches distinct).graph.entity? via.target = .error x := found
      rw [leftJoin_of_missing found, leftJoin_of_missing found']
      simp [Query.afterFetches, Query.takeAlias, Except.map, Nat.add_right_comm]
    · have found' : (q.afterFetches fetches distinct).graph.entity? via.target = .ok target := found
      rw [leftJoin_of_found found, leftJoin_of_found found']
      simp [Query.afterFetches, Query.withJoin, Query.takeAlias, Query.nextPosition, Except.map,
        Position.shift, LeftJoin.shift, Alias.shift, Nat.add_right_comm]

theorem shiftAll_of_forall₂ {k : Nat} {xs ys : List Condition}
    (h : List.Forall₂ (fun c c' => c' = c.shift k) xs ys) : ys = Condition.shiftAll k xs := by
  induction h with
  | nil => rfl
  | cons hab _ ih => rw [Condition.shiftAll, hab, ih]

theorem group?_shiftAll (k : Nat) (connective : Connective) : ∀ cs : List Condition,
    Condition.group? connective (Condition.shiftAll k cs) =
      (Condition.group? connective cs).map (Condition.shift k)
  | [] => rfl
  | [_] => rfl
  | _ :: _ :: _ => rfl

structure Query.Plain (q : Query) (root : Entity) : Prop where
  root : q.root = root
  fetched : q.fetched = []
  distinct : q.distinct = false

theorem plain_of_join {q : Query} {root : Entity} (plain : q.Plain root) (p : Position)
    (relationship : String) : (Query.join p relationship q).2.Plain root := by
  rcases known : p.entity.relationship? relationship with x | via
  · rw [join_of_unknown known]
    exact plain
  · rw [join_of_known known]
    rcases found : q.graph.entity? via.target with x | target
    · rw [leftJoin_of_missing found]
      exact ⟨plain.root, plain.fetched, plain.distinct⟩
    · rw [leftJoin_of_found found]
      exact ⟨plain.root, plain.fetched, plain.distinct⟩

def fetchedCorrespondence (root : Entity) (fetches : List Fetch) (distinct : Bool) :
    Correspondence (sqlEngine ⟨root, .root⟩) (sqlEngine ⟨root, .root⟩) where
  State q q' := q.Plain root ∧ q' = q.afterFetches fetches distinct
  Place p p' := p' = p.shift fetches.length
  Name c c' := c' = c.shift fetches.length
  Term c c' := c' = c.shift fetches.length
  root := rfl
  isNull _ := rfl
  join := by
    rintro q _ p _ name ⟨plain, rfl⟩ rfl
    have joined := plain_of_join plain p name
    revert joined
    simp only [sqlEngine, join_afterFetches]
    rcases Query.join p name q with ⟨x | position, q'⟩
    · intro joined
      exact ⟨rfl, joined, rfl⟩
    · intro joined
      exact ⟨rfl, joined, rfl⟩
  get := by
    rintro q _ p _ name ⟨plain, rfl⟩ rfl
    simp only [sqlEngine, columnCall, Position.column?, Position.shift, bind, Except.bind]
    rcases p.entity.column? name with x | column
    · exact ⟨rfl, plain, rfl⟩
    · exact ⟨rfl, plain, rfl⟩
  compare := by
    rintro q _ a _ c ⟨plain, rfl⟩ rfl
    simp only [sqlEngine, Column.compare?]
    split
    · exact ⟨rfl, plain, rfl⟩
    · exact ⟨rfl, plain, rfl⟩
  all := by
    rintro q _ xs ys ⟨plain, rfl⟩ h
    simp only [sqlEngine, shiftAll_of_forall₂ h, group?_shiftAll]
    rcases Condition.group? .all xs with x | c
    · exact ⟨rfl, plain, rfl⟩
    · exact ⟨rfl, plain, rfl⟩
  any := by
    rintro q _ xs ys ⟨plain, rfl⟩ h
    simp only [sqlEngine, shiftAll_of_forall₂ h, group?_shiftAll]
    rcases Condition.group? .any xs with x | c
    · exact ⟨rfl, plain, rfl⟩
    · exact ⟨rfl, plain, rfl⟩
  truth := by
    rintro q _ ⟨plain, rfl⟩
    exact ⟨rfl, plain, rfl⟩

/-! ## Hints become fetches -/

section Hints

variable {g : EntityGraph} {root : Entity}

def fetchedQuery (g : EntityGraph) (root : Entity) (fetches : List Fetch) : Query :=
  (Query.ofRoot g root).afterFetches fetches false

theorem Fetch.Of.hasToOne {f : Fetch} (h : f.Of g root) : root.hasToOne f.name = true := by
  simp [Entity.hasToOne, h.via, h.toOne]

theorem lookup_fetchPositions {name : String} {fetches : List Fetch}
    (h : name ∉ fetches.map Fetch.name) : (fetchPositions 1 fetches).lookup name = none := by
  rw [← map_fst_fetchPositions fetches 1] at h
  exact lookup_eq_none_of_not_mem h

/-- A fetch succeeds exactly if the root has the relationship, and it leads to one entity. -/
theorem fetch_fetchedQuery (hg : g.Constructed) (hroot : root ∈ g.entities) {name : String}
    {fetches : List Fetch} (fresh : name ∉ fetches.map Fetch.name) :
    (root.hasToOne name = true ∧ ∃ f : Fetch, f.Of g root ∧ f.name = name ∧
        Query.fetch name (fetchedQuery g root fetches) =
          (.ok (), fetchedQuery g root (fetches ++ [f]))) ∨
      (root.hasToOne name = false ∧ ∃ x,
        Query.fetch name (fetchedQuery g root fetches) =
          (.error x, fetchedQuery g root fetches)) := by
  have hfresh : (fetchedQuery g root fetches).fetched.lookup name = none :=
    lookup_fetchPositions fresh
  rcases hvia : root.relationships.lookup name with _ | via
  · have unknown : (fetchedQuery g root fetches).root.relationships.lookup name = none := hvia
    exact Or.inr ⟨by simp [Entity.hasToOne, hvia], _,
      fetch_of_unknown hfresh (relationship?_eq_error unknown)⟩
  · obtain ⟨target, link⟩ := hg.link hroot hvia
    have known : (fetchedQuery g root fetches).root.relationship? name = .ok via :=
      EntityGraph.relationship?_eq_ok.mpr hvia
    rcases hmany : via.toMany
    · have found : (fetchedQuery g root fetches).graph.entity? via.target = .ok target := link.found
      refine Or.inl ⟨by simp [Entity.hasToOne, hvia, hmany], ⟨name, via, target⟩,
        ⟨hvia, hmany, link.found⟩, rfl, ?_⟩
      rw [fetch_of_found hfresh known hmany found]
      simp [fetchedQuery, Query.afterFetches, Query.ofRoot, Query.withFetch, Query.withJoin,
        Query.takeAlias, Query.nextPosition, fetchJoins_append_singleton,
        fetchPositions_append_singleton, Fetch.join, Fetch.position, Nat.add_comm]
    · exact Or.inr ⟨by simp [Entity.hasToOne, hvia, hmany], _,
        fetch_of_toMany hfresh known hmany⟩

theorem applyHints_fetchedQuery (hg : g.Constructed) (hroot : root ∈ g.entities) :
    ∀ (hints : List String) (fetches : List Fetch), hints.Nodup →
      (∀ name ∈ hints, name ∉ fetches.map Fetch.name) →
      ∃ more : List Fetch, more.map Fetch.name = hints.filter root.hasToOne ∧
        (∀ f ∈ more, f.Of g root) ∧
        (applyHints (sqlEngine ⟨root, .root⟩) hints (fetchedQuery g root fetches)).engine =
          fetchedQuery g root (fetches ++ more) ∧
        (applyHints (sqlEngine ⟨root, .root⟩) hints (fetchedQuery g root fetches)).applied =
          !more.isEmpty := by
  intro hints
  induction hints with
  | nil => intro fetches _ _; exact ⟨[], by simp [applyHints]⟩
  | cons name rest ih =>
      intro fetches hnodup fresh
      obtain ⟨hname, hrest⟩ := List.nodup_cons.mp hnodup
      simp only [applyHints, sqlEngine]
      rcases fetch_fetchedQuery hg hroot (fresh name (by simp)) with
        ⟨htoOne, f, hf, rfl, hfetch⟩ | ⟨htoOne, x, hfetch⟩
      · have fresh' : ∀ other ∈ rest, other ∉ (fetches ++ [f]).map Fetch.name := by
          intro other hother
          rw [List.map_append, List.mem_append, not_or]
          refine ⟨fresh other (List.mem_cons_of_mem _ hother), ?_⟩
          intro h
          exact hname (List.mem_singleton.mp h ▸ hother)
        obtain ⟨more, hmore, hof, hengine, _⟩ := ih (fetches ++ [f]) hrest fresh'
        refine ⟨f :: more, by simp [htoOne, hmore], ?_, ?_, ?_⟩
        · exact List.forall_mem_cons.mpr ⟨hf, hof⟩
        · simp only [hfetch]
          -- One by one, the fetches are appended in the order of their hints.
          rw [← List.append_cons] at hengine
          exact hengine
        · simp [hfetch]
      · -- The failed fetch left the query as it was.
        have fresh' : ∀ other ∈ rest, other ∉ fetches.map Fetch.name :=
          fun other hother => fresh other (List.mem_cons_of_mem _ hother)
        obtain ⟨more, hmore, hof, hengine, happlied⟩ := ih fetches hrest fresh'
        refine ⟨more, by simp [htoOne, hmore], hof, ?_, ?_⟩
        · simp only [hfetch]
          exact hengine
        · simp only [hfetch]
          exact happlied

end Hints

/-! ## The two queries of a search -/

theorem eager_buildCompiled {g : EntityGraph} {root : Entity} {criteria : CompiledCriteria}
    {fetches : List Fetch}
    (hengine : (applyHints (sqlEngine ⟨root, .root⟩) criteria.hints (.ofRoot g root)).engine =
      fetchedQuery g root fetches)
    (happlied : (applyHints (sqlEngine ⟨root, .root⟩) criteria.hints
      (.ofRoot g root)).applied = !fetches.isEmpty) :
    (buildCompiled (sqlEngine ⟨root, .root⟩) true criteria (.ofRoot g root)).1 =
      toExpression (sqlEngine ⟨root, .root⟩) criteria.predicate
        ((Query.ofRoot g root).afterFetches fetches (!fetches.isEmpty)) := by
  simp only [buildCompiled, if_true, hengine, happlied]
  cases fetches with
  | nil => rfl
  | cons f rest => rfl

theorem select_afterFetches {q : Query} {root : Entity} (plain : q.Plain root) (c : Condition)
    (fetches : List Fetch) :
    (q.afterFetches fetches (!fetches.isEmpty)).select (c.shift fetches.length) =
      (q.select c).withFetches fetches := by
  simp [Query.select, Select.withFetches, Query.afterFetches, Query.items,
    fetchedItems_fetchPositions, plain.fetched, Query.rootPosition]

theorem eager_alike {cache : IntentCache} {i : Instance} {g : EntityGraph} {entity : String}
    {root : Entity} {criteria : CompiledCriteria} (hg : g.Constructed)
    (hroot : g.entity? entity = .ok root)
    (hcriteria : (compile cache i).result = .ok criteria) :
    ∃ fetches : List Fetch, fetches.map Fetch.name = criteria.hints.filter root.hasToOne ∧
      (∀ f ∈ fetches, f.Of g root) ∧
      ((∃ x, (buildQuery cache i g entity false).result = .error x ∧
          (buildQuery cache i g entity true).result = .error x) ∨
        ∃ plain : Select, (buildQuery cache i g entity false).result = .ok plain ∧
          plain.distinct = false ∧
          (buildQuery cache i g entity true).result = .ok (plain.withFetches fetches)) := by
  have hnodup : criteria.hints.Nodup := (hints_pairwise hcriteria).imp ne_of_lt
  obtain ⟨fetches, hnames, hof, hengine, happlied⟩ :=
    applyHints_fetchedQuery hg (EntityGraph.mem_of_entity?_eq_ok hroot) criteria.hints [] hnodup
      (by simp)
  rw [List.nil_append] at hengine
  have start : (Query.ofRoot g root).Plain root := ⟨rfl, rfl, rfl⟩
  have alike := (fetchedCorrespondence root fetches (!fetches.isEmpty)).toExpression_alike
    criteria.predicate (s := .ofRoot g root) ⟨start, rfl⟩
  refine ⟨fetches, hnames, hof, ?_⟩
  rw [buildQuery_eq hroot hcriteria, buildQuery_eq hroot hcriteria, plain_buildCompiled,
    eager_buildCompiled (g := g) hengine happlied]
  -- Both translations are of one predicate, so neither fails alone.
  revert alike
  rcases toExpression (sqlEngine ⟨root, .root⟩) criteria.predicate (.ofRoot g root) with
    ⟨_ | c, q⟩ <;>
  rcases toExpression (sqlEngine ⟨root, .root⟩) criteria.predicate
    ((Query.ofRoot g root).afterFetches fetches (!fetches.isEmpty)) with ⟨_ | c', q'⟩ <;>
  intro alike
  · exact Or.inl ⟨_, rfl, by rw [alike.1]⟩
  · exact alike.elim
  · exact alike.elim
  · obtain ⟨hc, plain, hq⟩ := alike
    refine Or.inr ⟨_, rfl, plain.distinct, ?_⟩
    have hshift : c' = c.shift fetches.length := hc
    simp only [hshift, hq, select_afterFetches plain]

/-- The eager query is the plain one with the fetches that the criteria's hints name. -/
structure Select.EagerOf (eager plain : Select) (g : EntityGraph) (root : Entity)
    (criteria : CompiledCriteria) (fetches : List Fetch) : Prop where
  ascending : criteria.hints.Pairwise (· < ·)
  names : fetches.map Fetch.name = criteria.hints.filter root.hasToOne
  targets : ∀ f ∈ fetches, f.Of g root
  added : eager = plain.withFetches fetches
  notDistinct : plain.distinct = false
  parameters : eager.parameters = plain.parameters
  unchanged : fetches = [] → eager = plain

theorem eager_search_adds_fetches {g : EntityGraph} (hg : g.Constructed) (cache : IntentCache)
    (i : Instance) (entity : String) :
    (∃ x, (buildQuery cache i g entity false).result = .error x ∧
      (buildQuery cache i g entity true).result = .error x) ∨
    ∃ root criteria plain eager fetches, g.entity? entity = .ok root ∧
      (compile cache i).result = .ok criteria ∧
      (buildQuery cache i g entity false).result = .ok plain ∧
      (buildQuery cache i g entity true).result = .ok eager ∧
      eager.EagerOf plain g root criteria fetches := by
  rcases hroot : g.entity? entity with x | root
  · refine Or.inl ⟨.query (.schema x), ?_, ?_⟩ <;> simp [buildQuery, Query.start?, hroot]
  · rcases hcriteria : (compile cache i).result with x | criteria
    · refine Or.inl ⟨.build (.criteria x), ?_, ?_⟩ <;>
        simp [buildQuery, Query.start?, hroot, build, hcriteria, Except.mapError, Except.map]
    · obtain ⟨fetches, hnames, htargets, hfailed | ⟨plain, hplain, hdistinct, heager⟩⟩ :=
        eager_alike hg hroot hcriteria
      · exact Or.inl hfailed
      · refine Or.inr ⟨root, criteria, plain, _, fetches, rfl, rfl, hplain, heager, ?_⟩
        refine ⟨hints_pairwise hcriteria, hnames, htargets, rfl, hdistinct, ?_, ?_⟩
        · exact Condition.parameters_shift _ _
        · intro hnil
          rw [hnil, plain.withFetches_nil hdistinct]

theorem eager_search_adds_fetches_catalog :
    Catalog.graph.Constructed ∧
      ((∃ x, (Catalog.productQuery [("category_name", .text "Toys")] false).result = .error x ∧
        (Catalog.productQuery [("category_name", .text "Toys")] true).result = .error x) ∨
      ∃ root criteria plain eager fetches, Catalog.graph.entity? "product" = .ok root ∧
        (compile .empty (.ofValues (.declared Catalog.productSearch)
          [("category_name", .text "Toys")])).result = .ok criteria ∧
        (Catalog.productQuery [("category_name", .text "Toys")] false).result = .ok plain ∧
        (Catalog.productQuery [("category_name", .text "Toys")] true).result = .ok eager ∧
        eager.EagerOf plain Catalog.graph root criteria fetches) :=
  ⟨Catalog.graph_constructed, eager_search_adds_fetches Catalog.graph_constructed _ _ _⟩

end CatalogSearch.Sql
