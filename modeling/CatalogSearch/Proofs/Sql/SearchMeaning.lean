import CatalogSearch.Catalog.Graph
import CatalogSearch.Proofs.Sql.Aliases
import CatalogSearch.Proofs.Sql.Layout
import CatalogSearch.Proofs.Sql.Operations
import CatalogSearch.Proofs.Sql.Search

/-!
# The meaning of a search

The SELECT of a plain search returns the rows that the search asks for.  Main statement:
`search_rows`.

Translating a predicate, the engine lays the joins of its paths and makes a condition that is, in
the scope of a choice, as true as the predicate is of the choice (`toExpression_expresses`).
-/

set_option autoImplicit false

namespace CatalogSearch.Sql

open Criteria

/-! ## Conditions and predicates -/

section Predicates

variable {V : Type}

mutual

/-- How true a predicate is of a choice. -/
def truthOf (reading : Reading V) (choice : Choice V) : Predicate → Truth
  | .leaf path c => reading c (cellAt choice path)
  | .unsupported _ _ => .unknown
  | .anyOf operands => Connective.any.join (truthsOf reading choice operands)
  | .allOf operands => Connective.all.join (truthsOf reading choice operands)

def truthsOf (reading : Reading V) (choice : Choice V) : List Predicate → List Truth
  | [] => []
  | p :: rest => truthOf reading choice p :: truthsOf reading choice rest

end

/-- The condition is as true in the scope of a choice, however the joins go on, as the predicate is
of the choice. -/
def Expresses (reading : Reading V) (reached : Reached Position) (p : Predicate) (c : Condition) :
    Prop :=
  ∀ (fetched : Nat → Row V) (more : Reached Position) (choice : Choice V),
    c.holds reading (scopeOf fetched (reached ++ more) choice) = truthOf reading choice p

/-- A node that can be expressed: its path resolves, and it has operands or values if it needs
any. -/
def Expressible (g : EntityGraph) (root : Entity) : Predicate → Prop
  | .leaf path c => CleanPath path ∧ g.Resolves root path ∧ c ≠ .oneOf []
  | .unsupported _ _ => False
  | .anyOf operands => operands ≠ []
  | .allOf _ => True

theorem truthsOf_eq_of_forall₂ {reading : Reading V} {reached : Reached Position}
    {ps : List Predicate} {cs : List Condition} (h : List.Forall₂ (Expresses reading reached) ps cs)
    (fetched : Nat → Row V) (more : Reached Position) (choice : Choice V) :
    cs.map (Condition.holds reading (scopeOf fetched (reached ++ more) choice)) =
      truthsOf reading choice ps := by
  induction h with
  | nil => rfl
  | cons hpc _ ih => rw [List.map_cons, truthsOf, ih, hpc fetched more choice]

theorem group?_expresses {reading : Reading V} {reached : Reached Position} {ps : List Predicate}
    {cs : List Condition} (h : List.Forall₂ (Expresses reading reached) ps cs) (hne : ps ≠ [])
    (connective : Connective) :
    ∃ c, Condition.group? connective cs = .ok c ∧
      ∀ (fetched : Nat → Row V) (more : Reached Position) (choice : Choice V),
        c.holds reading (scopeOf fetched (reached ++ more) choice) =
          connective.join (truthsOf reading choice ps) := by
  have hgroup := group?_of_forall₂ h hne connective
  refine ⟨_, hgroup, fun fetched more choice => ?_⟩
  rw [holds_of_group? hgroup, truthsOf_eq_of_forall₂ h]

variable (g : EntityGraph) (root : Entity)

def Joined (q : Query) (reached : Reached Position) : Prop :=
  ∃ joins, q = .ofJoins g root joins ∧ Laid g root reached joins

theorem join_joined {q : Query} {reached : Reached Position} {parent : List String} {name : String}
    {p : Position} (joined : Joined g root q reached)
    (at_ : reachedAt? ⟨root, .root⟩ reached parent = some p) {e : Entity}
    (resolves : g.entityAt? root (parent ++ [name]) = some e)
    (fresh : parent ++ [name] ∉ reached.map Prod.fst) :
    ∃ position q', Query.join p name q = (.ok position, q') ∧
      Joined g root q' (reached ++ [(parent ++ [name], position)]) := by
  obtain ⟨joins, rfl, laid⟩ := joined
  rw [g.entityAt?_append_singleton, laid.linkAt at_, Option.map_eq_some_iff] at resolves
  obtain ⟨⟨via, target⟩, step, _⟩ := resolves
  obtain ⟨hvia, htarget⟩ := EntityGraph.step?_eq_some.mp step
  refine ⟨_, _, join_eq_ok.mpr ⟨via, target, hvia, htarget, rfl, rfl⟩, _, ?_,
    .join laid at_ step fresh⟩
  simp [Query.withJoin, Query.takeAlias, Query.nextPosition, Query.ofJoins]

def searchWalk (reading : Reading V) : Walk (sqlEngine ⟨root, .root⟩) where
  Holds q reached _ := Joined g root q reached
  Fails _ _ _ := False
  Names reached path a := ∀ (fetched : Nat → Row V) (more : Reached Position)
    (choice : Choice V), a.value (scopeOf fetched (reached ++ more) choice) = cellAt choice path
  Means := Expresses reading
  Proper := Expressible g root
  clean h := h.1
  supported h := h
  mono more h fetched others choice := by
    rw [List.append_assoc]
    exact h fetched (more ++ others) choice
  join := by
    intro q reached visits path c parent name p joined proper start at_ fresh
    obtain ⟨_, ⟨e, he, _⟩, _⟩ := proper
    obtain ⟨later, hlater⟩ := start
    rw [← hlater, g.entityAt?_append] at he
    obtain ⟨e', he', _⟩ := Option.bind_eq_some_iff.mp he
    obtain ⟨position, q', hjoin, hjoined⟩ := join_joined g root joined at_ he' fresh
    simp only [sqlEngine, hjoin]
    exact ⟨trivial, hjoined⟩
  get := by
    intro q reached visits path c p joined proper at_
    obtain ⟨_, ⟨e, he, hcolumn⟩, _⟩ := proper
    obtain ⟨joins, hq, laid⟩ := joined
    -- The position reached is at the entity that the path resolves to, so it has the attribute.
    rw [laid.entityAt at_] at he
    obtain rfl := Option.some.inj he
    simp only [sqlEngine, columnCall, Position.column?, Entity.column?, List.contains_iff_mem,
      hcolumn, if_true, bind, Except.bind, pure, Except.pure]
    refine ⟨fun fetched more choice => ?_, joins, hq, laid⟩
    rw [Column.value, laid.scopeOf_qualifier at_]
    rfl
  compare := by
    intro q reached visits path c a joined proper names
    have hcompare : a.compare? c = .ok (.test a c) := by
      unfold Column.compare?
      split
      · exact absurd rfl proper.2.2
      · rfl
    simp only [sqlEngine, hcompare]
    refine ⟨fun fetched more choice => ?_, joined⟩
    rw [Condition.holds, names fetched more choice]
    rfl
  any := by
    intro q reached visits ps cs joined proper means
    obtain ⟨c, hc, hholds⟩ := group?_expresses means proper .any
    simp only [sqlEngine, hc]
    exact ⟨hholds, joined⟩
  all := by
    intro q reached visits p ps cs joined _ means
    obtain ⟨c, hc, hholds⟩ := group?_expresses means (by simp) .all
    simp only [sqlEngine, hc]
    exact ⟨hholds, joined⟩
  truth := by
    intro q reached visits joined _
    exact ⟨fun fetched more choice => rfl, joined⟩

theorem toExpression_expresses (reading : Reading V) (p : Predicate)
    (expressible : p.Every (Expressible g root)) :
    ∃ c joins reached,
      toExpression (sqlEngine ⟨root, .root⟩) p (.ofRoot g root) =
        (.ok c, .ofJoins g root joins) ∧
      Laid g root reached joins ∧ reached.map Prod.fst = newTrails [] (p.paths.flatMap trailsOf) ∧
      ∀ fetched (choice : Choice V),
        c.holds reading (scopeOf fetched reached choice) = truthOf reading choice p := by
  have ready : (searchWalk g root reading).Ready ⟨.ofRoot g root, .empty⟩ [] [] :=
    ⟨⟨[], rfl, .nil⟩, rfl, by simp, by simp⟩
  have kept := Walk.express_kept p expressible ready
  rcases hrun : express (sqlEngine ⟨root, .root⟩) p ⟨.ofRoot g root, .empty⟩ with
    ⟨x | c, t⟩
  · rw [hrun] at kept
    obtain ⟨_, _, _, _, hfails⟩ := kept
    exact hfails.elim
  · rw [hrun] at kept
    obtain ⟨reached, hreached, ready', hmeans⟩ := kept
    obtain ⟨joins, hengine, laid⟩ := ready'.holds
    refine ⟨c, joins, reached, ?_, laid, hreached, fun fetched choice => ?_⟩
    · simp [toExpression, hrun, hengine]
    · simpa using hmeans fetched [] choice

end Predicates

/-! ## Rows of a search -/

section Rows

/-- The aliases of the tables of a statement. -/
def Select.aliases (s : Select) : List Alias :=
  s.from_.qualifier :: s.joins.map fun j => j.position.qualifier

theorem Laid.aliases_nodup {g : EntityGraph} {root : Entity} {reached : Reached Position}
    {joins : List LeftJoin} (laid : Laid g root reached joins) (c : Condition) :
    ((plainSelect root joins c).aliases.map Alias.text).Nodup := by
  have haliases : (plainSelect root joins c).aliases.map Alias.text =
      (List.range (joins.length + 1)).map fun number => (Alias.joined number).text := by
    rw [List.range_succ_eq_map]
    simp only [Select.aliases, plainSelect, laid.qualifiers, List.map_cons, List.map_map]
    rfl
  rw [haliases]
  exact List.nodup_range.map fun _ _ h => Alias.number_eq_of_text_eq h

theorem expressible_predicates {g : EntityGraph} {root : Entity}
    {fields : List (FieldIntent × Value)} (sound : ∀ f ∈ fields, f.1.Sound)
    (resolves : ∀ path ∈ filteringPaths fields, g.Resolves root path) :
    Predicate.EveryOf (Expressible g root) (predicates fields) := by
  refine everyOf_predicates (fun _ hne => hne) fields (fun f hf => (sound f hf).toFormed) ?_
  intro f hf c hc path hpath
  have hfilters : path ∈ filteringPaths fields :=
    List.mem_flatMap.mpr ⟨f, hf, by simpa [hc] using hpath⟩
  exact ⟨(sound f hf).clean path hpath, resolves path hfilters,
    fun h => comparison?_ne_oneOf_nil f.1 f.2 (h ▸ hc)⟩

variable {V : Type}

theorem truthsOf_eq_map (reading : Reading V) (choice : Choice V) : ∀ ps : List Predicate,
    truthsOf reading choice ps = ps.map (truthOf reading choice) := by
  intro ps
  induction ps with
  | nil => rfl
  | cons p rest ih => rw [truthsOf, ih, List.map_cons]

/-- The predicate of a field is true of the choices on which some path of it is. -/
theorem truthOf_predicate {i : FieldIntent} (sound : i.Sound) (reading : Reading V)
    (choice : Choice V) (c : Comparison) :
    truthOf reading choice (i.predicate c) = .yes ↔
      ∃ path ∈ i.paths, reading c (cellAt choice path) = .yes := by
  by_cases hterm : i.kind = .term
  · rw [predicate_of_term hterm, truthOf, truthsOf_eq_map, Connective.join_any_eq_yes]
    simp [truthOf]
  · obtain ⟨path, hpaths⟩ := sound.single hterm
    rw [predicate_of_single hpaths hterm, hpaths]
    simp [truthOf]

theorem truthOf_predicates {fields : List (FieldIntent × Value)} (sound : ∀ f ∈ fields, f.1.Sound)
    (reading : Reading V) (choice : Choice V) :
    truthOf reading choice (.allOf (predicates fields)) = .yes ↔
      fields.all (satisfied reading choice) = true := by
  rw [truthOf, truthsOf_eq_map, Connective.join_all_eq_yes, List.all_eq_true, List.forall_mem_map]
  simp only [predicates, List.mem_filterMap, Option.map_eq_some_iff]
  constructor
  · intro h f hf
    simp only [satisfied]
    rcases hc : f.1.comparison? f.2 with _ | c
    · rfl
    · have hyes := h (f.1.predicate c) ⟨f, hf, c, hc, rfl⟩
      simpa using (truthOf_predicate (sound f hf) reading choice c).mp hyes
  · rintro h _ ⟨f, hf, c, hc, rfl⟩
    refine (truthOf_predicate (sound f hf) reading choice c).mpr ?_
    simpa [satisfied, hc] using h f hf

/-- The joins and the condition of a search for fields. -/
structure SearchedBy (reading : Reading V) (g : EntityGraph) (root : Entity)
    (fields : List (FieldIntent × Value)) (reached : Reached Position) (joins : List LeftJoin)
    (c : Condition) : Prop where
  laid : Laid g root reached joins
  trails : reached.map Prod.fst = askedTrails fields
  holds : ∀ fetched (choice : Choice V), c.holds reading (scopeOf fetched reached choice) = .yes ↔
    fields.all (satisfied reading choice) = true

theorem exists_searchedBy {cache : IntentCache} {i : Instance} {g : EntityGraph} {entity : String}
    {root : Entity} {intents : List FieldIntent} {fields : List (FieldIntent × Value)}
    (hroot : g.entity? entity = .ok root) (sound : ∀ i ∈ intents, i.Sound)
    (hread : (cache.read i.type).result = .ok intents)
    (hfields : readFields? i intents = .ok fields)
    (resolves : ∀ path ∈ filteringPaths fields, g.Resolves root path) (reading : Reading V) :
    ∃ c joins reached,
      (buildQuery cache i g entity false).result = .ok (plainSelect root joins c) ∧
      SearchedBy reading g root fields reached joins c := by
  have soundFields : ∀ f ∈ fields, f.1.Sound := fun f hf =>
    sound f.1 (mem_of_readFields? intents hfields f hf)
  have expressible : (Predicate.allOf (predicates fields)).Every (Expressible g root) :=
    ⟨trivial, expressible_predicates soundFields resolves⟩
  obtain ⟨c, joins, reached, hto, laid, hreached, hholds⟩ :=
    toExpression_expresses g root reading _ expressible
  refine ⟨c, joins, reached, ?_, laid, ?_, fun fetched choice => ?_⟩
  · have formed : ∀ i ∈ intents, i.Formed := fun i hi => (sound i hi).toFormed
    rw [buildQuery_eq hroot (compile_sound hread formed hfields), plain_buildCompiled]
    simp only [CompiledCriteria.predicate, hto, select_eq_plainSelect]
  · have formed : ∀ f ∈ fields, f.1.Formed := fun f hf => (soundFields f hf).toFormed
    rw [hreached, askedTrails, Predicate.paths, pathsOf_predicates fields formed]
  · rw [hholds fetched choice]
    exact truthOf_predicates soundFields reading choice

theorem startAt_eq_scopeOf (root : Entity) (joins : List LeftJoin) (c : Condition) (row : Row V) :
    (plainSelect root joins c).startAt row = scopeOf (fun _ => nullRow) [] (startingWith row) := by
  rw [scopeOf_startingWith]
  rfl

variable [DecidableEq V]

namespace SearchedBy

variable {g : EntityGraph} {root : Entity} {fields : List (FieldIntent × Value)}
  {reached : Reached Position} {joins : List LeftJoin} {c : Condition} {reading : Reading V}

/-- The scopes kept for a root row are those of the choices that satisfy the fields. -/
theorem filter_joinAll (h : SearchedBy reading g root fields reached joins c) (db : Database V)
    (fetched : Nat → Row V) (row : Row V) :
    (joinAll db joins (scopeOf fetched [] (startingWith row))).filter
        (fun scope => c.holds reading scope = .yes) =
      (keptChoices db reading g root fields row).map (scopeOf fetched reached) := by
  rw [joinAll_scopeOf db h.laid, h.trails, Multiset.filter_map, keptChoices]
  congr 1
  exact Multiset.filter_congr fun choice _ => h.holds fetched choice

theorem rows_eq (h : SearchedBy reading g root fields reached joins c) (db : Database V) :
    (plainSelect root joins c).rows db reading = matchingRows db reading g root fields := by
  have hscopes : (plainSelect root joins c).scopes db reading =
      (db root.table).bind fun row =>
        (keptChoices db reading g root fields row).map (scopeOf (fun _ => nullRow) reached) := by
    simp only [← h.filter_joinAll, ← Multiset.filter_bind, ← startAt_eq_scopeOf root joins c]
    rfl
  rw [Select.rows, hscopes]
  simp only [matchingRows, plainSelect, Bool.false_eq_true, if_false, Multiset.map_bind]
  apply Multiset.bind_congr
  intro row _
  rw [Multiset.map_map]
  apply Multiset.map_congr rfl
  intro choice hchoice
  rw [Function.comp_apply, List.map_map]
  apply List.map_congr_left
  intro name _
  simp [Column.value, scopeOf, root_of_mem_keptChoices hchoice]

end SearchedBy

/-- A plain search of a made descriptor returns the rows it asks for, and the tables of its
statement have texts of their own. -/
theorem search_rows (db : Database V) (reading : Reading V) {cache : IntentCache} {key : Nat}
    {name entity : String} {specs : List FieldSpec} {d : Declaration}
    {attributes : List (String × Value)} {g : EntityGraph} {root : Entity}
    {intents : List FieldIntent} {fields : List (FieldIntent × Value)}
    (hroot : g.entity? entity = .ok root)
    (hd : Declaration.ofFields? key name specs = .ok d)
    (clean : ∀ spec ∈ specs, CleanPath spec.name)
    (faithful : cache.Faithful d) (hintents : d.intents? = .ok intents)
    (readable : readFields? ⟨.declared d, attributes⟩ intents = .ok fields)
    (resolves : ∀ path ∈ filteringPaths fields, g.Resolves root path) :
    ∃ select, (buildQuery cache ⟨.declared d, attributes⟩ g entity false).result = .ok select ∧
      (select.aliases.map Alias.text).Nodup ∧
      select.rows db reading = matchingRows db reading g root fields := by
  obtain ⟨c, joins, reached, hresult, searched⟩ :=
    exists_searchedBy hroot (sound_of_intents? hd clean hintents)
      (read_of_faithful faithful hintents) readable resolves reading
  exact ⟨_, hresult, searched.laid.aliases_nodup c, searched.rows_eq db⟩

theorem search_rows_catalog :
    ∃ select, (buildQuery .empty
        ⟨.declared ⟨0, "Wanted",
          [⟨"term", [.marker (.term ["name", "category.name"] .like)], none⟩,
            ⟨"rating", [.marker (.range "reviews.rating")], none⟩], true⟩,
          [("term", .text "toy"), ("rating", .range (some (.int 4)) none)]⟩
        Catalog.graph "product" false).result = .ok select ∧
      (select.aliases.map Alias.text).Nodup ∧
      select.rows (fun table => if table = "products" then {fun _ => some 1} else 0)
          (fun _ cell => if cell = some 1 then .yes else .unknown) =
        matchingRows (fun table => if table = "products" then {fun _ => some 1} else 0)
          (fun _ cell => if cell = some 1 then .yes else .unknown) Catalog.graph Catalog.product
          [(⟨"term", .term, ["name", "category.name"], .like⟩, .text "toy"),
            (⟨"rating", .range, ["reviews.rating"], .equal⟩, .range (some (.int 4)) none)] := by
  have made : Declaration.ofFields? 0 "Wanted"
      [⟨"term", [.marker (.term [.text "name", .text "category.name"] none)], none, true⟩,
        ⟨"rating", [.marker (.range (.text "reviews.rating"))], none, true⟩] =
      .ok ⟨0, "Wanted", [⟨"term", [.marker (.term ["name", "category.name"] .like)], none⟩,
        ⟨"rating", [.marker (.range "reviews.rating")], none⟩], true⟩ := rfl
  refine search_rows _ _ rfl made (by decide) (faithful_empty _) rfl rfl ?_
  intro path hpath
  have hpaths : path ∈ ["name", "category.name", "reviews.rating"] := hpath
  simp only [List.mem_cons, List.not_mem_nil, or_false] at hpaths
  rcases hpaths with rfl | rfl | rfl
  · exact ⟨Catalog.product, by decide, by decide⟩
  · exact ⟨Catalog.category, by decide, by decide⟩
  · exact ⟨Catalog.review, by decide, by decide⟩

end Rows

end CatalogSearch.Sql
