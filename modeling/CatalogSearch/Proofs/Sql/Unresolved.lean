import CatalogSearch.Proofs.Criteria.Translation
import CatalogSearch.Proofs.Sql.EagerFetch
import CatalogSearch.Proofs.Sql.Planned
import CatalogSearch.Proofs.Sql.SearchMeaning

/-!
# Paths that do not resolve

A path misses something of a graph where its relationships lead to an entity without the next one,
or all of them to an entity without the path's attribute.  A translation makes the visits of its
paths in order and stops at the first one whose target is missing.  Main statement:
`search_resolves`, that a search succeeds exactly if every path that it filters on resolves, and else
fails with what the first path that does not resolve misses.  Nothing else can fail: the nodes of
compiled predicates have the operands and values that they need, and failed fetches leave no trace.
-/

set_option autoImplicit false

namespace CatalogSearch.Sql

open Criteria

section Missing

variable (g : EntityGraph) (root : Entity)

/-- What the graph has not, of the segments of a path: the first one that is missing. -/
inductive FirstMissing (path : String) : SchemaError → Prop
  | noRelationship {trail : List String} {name : String} {e : Entity}
      (begins : trail ++ [name] <+: relationshipsOf path)
      (reaches : g.entityAt? root trail = some e)
      (missing : e.relationships.lookup name = none) :
      FirstMissing path (.unknownRelationship e.name name)
  | noAttribute {e : Entity} (reaches : g.entityAt? root (relationshipsOf path) = some e)
      (missing : attributeOf path ∉ e.columns) :
      FirstMissing path (.unknownAttribute e.name (attributeOf path))

def Finds : Visit → Prop
  | .join trail => ∃ e, g.entityAt? root trail = some e
  | .get trail name => ∃ e, g.entityAt? root trail = some e ∧ name ∈ e.columns

/-- The visit starts at an entity of the graph that has not what it asks for. -/
inductive Misses : Visit → SchemaError → Prop
  | join {trail : List String} {name : String} {e : Entity}
      (reaches : g.entityAt? root trail = some e)
      (missing : e.relationships.lookup name = none) :
      Misses (.join (trail ++ [name])) (.unknownRelationship e.name name)
  | get {trail : List String} {name : String} {e : Entity}
      (reaches : g.entityAt? root trail = some e) (missing : name ∉ e.columns) :
      Misses (.get trail name) (.unknownAttribute e.name name)

variable {g root}

theorem entityAt?_of_prefix {trail names : List String} (begins : trail <+: names) {e : Entity}
    (h : g.entityAt? root names = some e) : ∃ e', g.entityAt? root trail = some e' := by
  obtain ⟨later, rfl⟩ := begins
  rw [g.entityAt?_append] at h
  obtain ⟨e', he', _⟩ := Option.bind_eq_some_iff.mp h
  exact ⟨e', he'⟩

theorem not_firstMissing {path : String} (resolves : g.Resolves root path) (y : SchemaError) :
    ¬ FirstMissing g root path y := by
  obtain ⟨e, he, hcolumn⟩ := resolves
  intro missing
  cases missing with
  | @noRelationship trail name owner begins reaches missing =>
      obtain ⟨target, htarget⟩ := entityAt?_of_prefix begins he
      rw [g.entityAt?_append, reaches, Option.bind_some] at htarget
      simp [EntityGraph.entityAt?, EntityGraph.step?, missing] at htarget
  | noAttribute reaches missing =>
      rw [he] at reaches
      obtain rfl := Option.some.inj reaches
      exact missing hcolumn

theorem firstMissing_of_misses {seen : List (List String)} {path : String} {v : Visit}
    {y : SchemaError} (hv : v ∈ visitsOf seen path) (misses : Misses g root v y) :
    FirstMissing g root path y := by
  rw [visitsOf, List.mem_append] at hv
  cases misses with
  | @join trail name e reaches missing =>
      have hjoin : trail ++ [name] ∈ newTrails seen (trailsOf path) := by simpa using hv
      have hmem : trail ++ [name] ∈ trailsOf path := ((mem_newTrails _ _).mp hjoin).1
      exact .noRelationship (mem_trailsOf.mp hmem).2 reaches missing
  | @get trail name e reaches missing =>
      obtain ⟨rfl, rfl⟩ : trail = relationshipsOf path ∧ name = attributeOf path := by
        simpa using hv
      exact .noAttribute reaches missing

theorem resolves_of_finds {seen : List (List String)} {path : String}
    (finds : ∀ v ∈ visitsOf seen path, Finds g root v) : g.Resolves root path :=
  finds (.get (relationshipsOf path) (attributeOf path)) (by simp [visitsOf])

theorem resolves_of_itinerary : ∀ (paths : List String) (seen : List (List String)),
    (∀ v ∈ itinerary seen paths, Finds g root v) → ∀ path ∈ paths, g.Resolves root path := by
  intro paths
  induction paths with
  | nil => intro seen _ path hpath; simp at hpath
  | cons first rest ih =>
      intro seen finds
      obtain ⟨hfirst, hrest⟩ := List.forall_mem_append.mp finds
      exact List.forall_mem_cons.mpr ⟨resolves_of_finds hfirst, ih _ hrest⟩

/-- The visit at which an itinerary stops is one of the first path that does not resolve. -/
theorem firstMissing_of_itinerary {last : Visit} {y : SchemaError}
    (misses : Misses g root last y) :
    ∀ (paths : List String) (seen : List (List String)) (found : List Visit),
      (∀ v ∈ found, Finds g root v) → found ++ [last] <+: itinerary seen paths →
        ∃ before path after, paths = before ++ path :: after ∧
          (∀ p ∈ before, g.Resolves root p) ∧ FirstMissing g root path y := by
  intro paths
  induction paths with
  | nil =>
      intro seen found _ begins
      simp [itinerary] at begins
  | cons first rest ih =>
      intro seen found finds begins
      by_cases hlast : found ++ [last] <+: visitsOf seen first
      · have hmem : last ∈ visitsOf seen first := hlast.subset (by simp)
        exact ⟨[], first, rest, rfl, by simp, firstMissing_of_misses hmem misses⟩
      · -- All visits of the first path were made, so that it resolves.
        obtain ⟨others, hothers⟩ : visitsOf seen first <+: found ++ [last] :=
          (List.prefix_or_prefix_of_prefix (List.prefix_append _ _) begins).resolve_right hlast
        have hne : others ≠ [] := by
          intro hnil
          rw [hnil, List.append_nil] at hothers
          exact hlast (hothers ▸ List.prefix_rfl)
        obtain ⟨later, final, rfl⟩ := List.eq_nil_or_concat' others |>.resolve_left hne
        rw [← List.append_assoc] at hothers
        obtain ⟨rfl, hfinal⟩ := List.append_inj' hothers rfl
        obtain rfl := List.singleton_inj.mp hfinal
        obtain ⟨hfirst, hlater⟩ := List.forall_mem_append.mp finds
        rw [itinerary, List.append_assoc, List.prefix_append_right_inj] at begins
        obtain ⟨before, path, after, rfl, hbefore, missing⟩ := ih _ later hlater begins
        refine ⟨first :: before, path, after, rfl, ?_, missing⟩
        exact List.forall_mem_cons.mpr ⟨resolves_of_finds hfirst, hbefore⟩

end Missing

/-! ## Translations stop at what is missing -/

def Askable (p : Predicate) : Prop := p.Translatable ∧ Shaped p

section Resolving

variable {g : EntityGraph} (hg : g.Constructed) {root : Entity} (hroot : root ∈ g.entities)
include hg hroot

theorem join_finds {q : Query} {reached : Reached Position} {trail : List String} {name : String}
    {p : Position} (joined : Joined g root q reached)
    (at_ : reachedAt? ⟨root, .root⟩ reached trail = some p)
    (fresh : trail ++ [name] ∉ reached.map Prod.fst) :
    (∃ position q', Query.join p name q = (.ok position, q') ∧
        Joined g root q' (reached ++ [(trail ++ [name], position)]) ∧
        Finds g root (.join (trail ++ [name]))) ∨
      ∃ y, Query.join p name q = (.error (.schema y), q) ∧
        Misses g root (.join (trail ++ [name])) y := by
  obtain ⟨joins, rfl, laid⟩ := id joined
  have hreaches : g.entityAt? root trail = some p.entity := laid.entityAt at_
  rcases hvia : p.entity.relationships.lookup name with _ | via
  · refine Or.inr ⟨_, ?_, .join hreaches hvia⟩
    exact join_of_unknown (relationship?_eq_error hvia)
  · obtain ⟨target, link⟩ := hg.link (EntityGraph.mem_of_entityAt? trail hroot hreaches) hvia
    have hstep : g.step? p.entity name = some (via, target) :=
      EntityGraph.step?_eq_some.mpr ⟨EntityGraph.relationship?_eq_ok.mpr hvia, link.found⟩
    have hend : g.entityAt? root (trail ++ [name]) = some target := by
      rw [g.entityAt?_append, hreaches, Option.bind_some]
      simp [EntityGraph.entityAt?, hstep]
    obtain ⟨position, q', hjoin, hjoined⟩ := join_joined g root joined at_ hend fresh
    exact Or.inl ⟨position, q', hjoin, hjoined, target, hend⟩

/-- A translation finds the target of every visit, or stops at the first one that is missing. -/
def resolvingWalk : Walk (sqlEngine ⟨root, .root⟩) where
  Holds q reached visits := Joined g root q reached ∧ ∀ v ∈ visits, Finds g root v
  Fails x _ visits := ∃ found last y, visits = found ++ [last] ∧ (∀ v ∈ found, Finds g root v) ∧
    Misses g root last y ∧ x = .schema y
  Names _ _ _ := True
  Means _ _ _ := True
  Proper := Askable
  clean h := h.1
  supported h := h.1
  mono _ _ := trivial
  join := by
    intro q reached visits path c trail name p holds _ _ at_ fresh
    obtain ⟨joined, finds⟩ := holds
    rcases join_finds hg hroot joined at_ fresh with
      ⟨position, q', hjoin, hjoined, found⟩ | ⟨y, hjoin, misses⟩
    · simp only [sqlEngine, hjoin]
      exact ⟨trivial, hjoined, List.forall_mem_append.mpr ⟨finds, by simpa using found⟩⟩
    · simp only [sqlEngine, hjoin]
      exact ⟨visits, _, y, rfl, finds, misses, rfl⟩
  get := by
    intro q reached visits path c p holds _ at_
    obtain ⟨joined, finds⟩ := holds
    obtain ⟨joins, hq, laid⟩ := id joined
    have hreaches := laid.entityAt at_
    by_cases hcolumn : attributeOf path ∈ p.entity.columns
    · have hget := position_column?_eq_ok.mpr ⟨hcolumn, rfl⟩
      have found : Finds g root (.get (relationshipsOf path) (attributeOf path)) :=
        ⟨p.entity, hreaches, hcolumn⟩
      simp only [sqlEngine, columnCall, hget, Except.mapError]
      exact ⟨trivial, joined, List.forall_mem_append.mpr ⟨finds, by simpa using found⟩⟩
    · have hget : p.column? (attributeOf path) =
          .error (.unknownAttribute p.entity.name (attributeOf path)) := by
        simp [Position.column?, Entity.column?, hcolumn, bind, Except.bind]
      simp only [sqlEngine, columnCall, hget, Except.mapError]
      exact ⟨visits, _, _, rfl, finds, .get hreaches hcolumn, rfl⟩
  compare := by
    intro q reached visits path c a holds askable _
    have hcompare : a.compare? c = .ok (.test a c) := compare?_eq_ok.mpr ⟨askable.2, rfl⟩
    simp only [sqlEngine, hcompare]
    exact ⟨trivial, holds⟩
  any := by
    intro q reached visits ps cs holds askable means
    have hgroup := group?_of_forall₂ means askable.2 .any
    simp only [sqlEngine, hgroup]
    exact ⟨trivial, holds⟩
  all := by
    intro q reached visits p ps cs holds _ means
    have hgroup := group?_of_forall₂ means (List.cons_ne_nil p ps) .all
    simp only [sqlEngine, hgroup]
    exact ⟨trivial, holds⟩
  truth := by
    intro q reached visits holds _
    exact ⟨trivial, holds⟩

theorem toExpression_resolves (p : Predicate) (askable : p.Every Askable) :
    (∃ c q, toExpression (sqlEngine ⟨root, .root⟩) p (.ofRoot g root) = (.ok c, q) ∧
        ∀ path ∈ p.paths, g.Resolves root path) ∨
      ∃ before path after y q, p.paths = before ++ path :: after ∧
        (∀ other ∈ before, g.Resolves root other) ∧ FirstMissing g root path y ∧
        toExpression (sqlEngine ⟨root, .root⟩) p (.ofRoot g root) =
          (.error (.engine (.schema y)), q) := by
  have ready : (resolvingWalk hg hroot).Ready ⟨.ofRoot g root, .empty⟩ [] [] :=
    ⟨⟨⟨[], rfl, .nil⟩, by simp⟩, rfl, by simp, by simp⟩
  have kept := Walk.express_kept p askable ready
  rcases hrun : express (sqlEngine ⟨root, .root⟩) p ⟨.ofRoot g root, .empty⟩ with ⟨x | c, t⟩
  · rw [hrun] at kept
    obtain ⟨_, visited, rfl, begins, found, last, y, hvisited, finds, misses, rfl⟩ := kept
    rw [List.nil_append] at hvisited
    rw [hvisited] at begins
    obtain ⟨before, path, after, hpaths, resolves, missing⟩ :=
      firstMissing_of_itinerary misses p.paths [] found finds begins
    refine Or.inr ⟨before, path, after, y, t.engine, hpaths, resolves, missing, ?_⟩
    rw [toExpression, hrun]
  · rw [hrun] at kept
    obtain ⟨reached, _, ready', _⟩ := kept
    have finds := ready'.holds.2
    rw [List.nil_append] at finds
    refine Or.inl ⟨c, t.engine, ?_, resolves_of_itinerary p.paths [] finds⟩
    rw [toExpression, hrun]

end Resolving

theorem askable_predicates {fields : List (FieldIntent × Value)}
    (sound : ∀ f ∈ fields, f.1.Sound) : Predicate.EveryOf Askable (predicates fields) := by
  refine everyOf_predicates (fun _ hne => ⟨trivial, hne⟩) fields
    (fun f hf => (sound f hf).toFormed) ?_
  intro f hf c hc path hpath
  exact ⟨(sound f hf).clean path hpath, fun h => comparison?_ne_oneOf_nil f.1 f.2 (h ▸ hc)⟩

/-! ## Searches -/

/-- A search of the paths succeeds exactly if they all resolve, and else fails with what the first
one that does not resolve misses first. -/
structure SearchResolves (g : EntityGraph) (root : Entity) (paths : List String)
    (result : Except SearchError Select) : Prop where
  succeeds : (∃ select, result = .ok select) ↔ ∀ path ∈ paths, g.Resolves root path
  fails : ∀ x, result = .error x → ∃ before path after y, paths = before ++ path :: after ∧
    (∀ other ∈ before, g.Resolves root other) ∧ FirstMissing g root path y ∧
    x = .build (.expression (.engine (.schema y)))

section Searches

variable {g : EntityGraph} {root : Entity} {paths : List String}

theorem searchResolves_ok (resolves : ∀ path ∈ paths, g.Resolves root path) (select : Select) :
    SearchResolves g root paths (.ok select) where
  succeeds := by
    constructor
    · intro _
      exact resolves
    · intro _
      exact ⟨select, rfl⟩
  fails := by
    intro x hx
    cases hx

theorem searchResolves_error {before after : List String} {path : String} {y : SchemaError}
    (hpaths : paths = before ++ path :: after)
    (resolves : ∀ other ∈ before, g.Resolves root other) (missing : FirstMissing g root path y) :
    SearchResolves g root paths (.error (.build (.expression (.engine (.schema y))))) where
  succeeds := by
    constructor
    · intro h
      obtain ⟨select, hselect⟩ := h
      cases hselect
    · intro all
      have hpath : path ∈ paths := by simp [hpaths]
      exact absurd missing (not_firstMissing (all path hpath) y)
  fails := by
    intro x hx
    obtain rfl := Except.error.inj hx
    exact ⟨before, path, after, y, hpaths, resolves, missing, rfl⟩

variable {cache : IntentCache} {i : Instance} {entity : String}

theorem fails_like_plain {criteria : CompiledCriteria} (hg : g.Constructed)
    (hroot : g.entity? entity = .ok root) (hcriteria : (compile cache i).result = .ok criteria)
    (eager : Bool) :
    (∃ x, (buildQuery cache i g entity false).result = .error x ∧
        (buildQuery cache i g entity eager).result = .error x) ∨
      ∃ plain select, (buildQuery cache i g entity false).result = .ok plain ∧
        (buildQuery cache i g entity eager).result = .ok select := by
  cases eager with
  | false =>
      cases hplain : (buildQuery cache i g entity false).result with
      | error x => exact Or.inl ⟨x, rfl, rfl⟩
      | ok plain => exact Or.inr ⟨plain, plain, rfl, rfl⟩
  | true =>
      obtain ⟨fetches, _, _, hfailed | ⟨plain, hplain, _, heager⟩⟩ :=
        eager_alike hg hroot hcriteria
      · exact Or.inl hfailed
      · exact Or.inr ⟨plain, _, hplain, heager⟩

theorem search_resolves {intents : List FieldIntent} {fields : List (FieldIntent × Value)}
    (hg : g.Constructed) (hroot : g.entity? entity = .ok root) (sound : ∀ i ∈ intents, i.Sound)
    (hread : (cache.read i.type).result = .ok intents)
    (hfields : readFields? i intents = .ok fields) (eager : Bool) :
    ∃ criteria, (compile cache i).result = .ok criteria ∧
      criteria.predicate.paths = filteringPaths fields ∧
      SearchResolves g root criteria.predicate.paths
        (buildQuery cache i g entity eager).result := by
  have soundFields : ∀ f ∈ fields, f.1.Sound := fun f hf =>
    sound f.1 (mem_of_readFields? intents hfields f hf)
  have formed : ∀ f ∈ fields, f.1.Formed := fun f hf => (soundFields f hf).toFormed
  have hcriteria := compile_sound hread (fun i hi => (sound i hi).toFormed) hfields
  have askable : (Predicate.allOf (predicates fields)).Every Askable :=
    ⟨⟨trivial, trivial⟩, askable_predicates soundFields⟩
  have hplain := buildQuery_eq hroot hcriteria false
  rw [plain_buildCompiled] at hplain
  refine ⟨_, hcriteria, pathsOf_predicates fields formed, ?_⟩
  -- The plain search decides, and the eager one fails as it does.
  rcases toExpression_resolves hg (EntityGraph.mem_of_entity?_eq_ok hroot) _ askable with
    ⟨c, q, hto, resolves⟩ | ⟨before, path, after, y, q, hpaths, resolves, missing, hto⟩
  · have hselect : (buildQuery cache i g entity false).result = .ok (q.select c) := by
      rw [hplain, CompiledCriteria.predicate, hto]
    rcases fails_like_plain hg hroot hcriteria eager with
      ⟨x, hfailed, _⟩ | ⟨_, select, _, heager⟩
    · rw [hselect] at hfailed
      cases hfailed
    · rw [heager]
      exact searchResolves_ok resolves select
  · have herror : (buildQuery cache i g entity false).result =
        .error (.build (.expression (.engine (.schema y)))) := by
      rw [hplain, CompiledCriteria.predicate, hto]
    rcases fails_like_plain hg hroot hcriteria eager with
      ⟨x, hfailed, heager⟩ | ⟨_, _, hfailed, _⟩
    · rw [herror] at hfailed
      obtain rfl := Except.error.inj hfailed
      rw [heager]
      exact searchResolves_error hpaths resolves missing
    · rw [herror] at hfailed
      cases hfailed

end Searches

end CatalogSearch.Sql
