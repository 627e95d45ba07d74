import CatalogSearch.Catalog.Search
import CatalogSearch.Proofs.Catalog.Graph
import CatalogSearch.Proofs.Sql.EagerMeaning

/-!
# Eager product searches

An eager product search fetches the category if a field filters on it, and then asks for distinct
rows.  Main statement: over tables with `id` as their key, this returns each product once that the
plain search returns at all, which makes a difference exactly for the products that the plain search
returns twice or more, one copy for each matching review (`eager_search_copies`).
-/

set_option autoImplicit false

namespace CatalogSearch.Catalog

open Criteria Sql

/-! ## The fields of a product search -/

def productIntents : List FieldIntent :=
  [⟨"term", .term, ["name", "description"], .like⟩,
    ⟨"price_range", .range, ["price"], .equal⟩,
    ⟨"created", .range, ["created_at"], .equal⟩,
    ⟨"status_list", .single, ["status"], .equal⟩,
    ⟨"category_id", .single, ["category_id"], .equal⟩,
    ⟨"category_name", .single, ["category.name"], .like⟩,
    ⟨"department_name", .single, ["category.department.name"], .equal⟩,
    ⟨"manager_name", .single, ["category.department.manager.name"], .like⟩,
    ⟨"rating", .range, ["reviews.rating"], .equal⟩]

def productFields (values : List (String × Value)) : List (FieldIntent × Value) :=
  productIntents.map fun i => (i, (values.lookup i.name).getD .null)

theorem productSearch_intents? : productSearch.intents? = .ok productIntents := rfl

theorem productIntents_sound : ∀ i ∈ productIntents, i.Sound := by
  intro i hi
  have clean : ∀ i ∈ productIntents, ∀ path ∈ i.paths, CleanPath path := by decide
  have nonempty : ∀ i ∈ productIntents, i.paths ≠ [] := by decide
  have kind : ∀ i ∈ productIntents, i.kind ≠ .none := by decide
  have single : ∀ i ∈ productIntents, i.kind ≠ .term → i.paths.length = 1 := by decide
  exact ⟨⟨nonempty i hi, kind i hi, fun h => List.length_eq_one_iff.mp (single i hi h)⟩, clean i hi⟩

theorem read?_productSearch (values : List (String × Value)) :
    ∀ i ∈ productIntents, (Instance.ofValues (.declared productSearch) values).read? i.name =
      some ((values.lookup i.name).getD .null) := by
  intro i hi
  have hdefault : (defaultsOf productSearch.fields).lookup i.name = some .null := by
    simp only [productIntents, List.mem_cons, List.not_mem_nil, or_false] at hi
    rcases hi with rfl | rfl | rfl | rfl | rfl | rfl | rfl | rfl | rfl <;> rfl
  simp only [Instance.read?, Instance.ofValues, DescriptorType.fields, List.lookup_append, hdefault]
  cases values.lookup i.name <;> rfl

theorem mem_productIntents {values : List (String × Value)} {path : String}
    (h : path ∈ filteringPaths (productFields values)) : ∃ i ∈ productIntents, path ∈ i.paths := by
  obtain ⟨f, hf, hpath⟩ := List.mem_flatMap.mp h
  obtain ⟨i, hi, rfl⟩ := List.mem_map.mp hf
  split at hpath
  · exact ⟨i, hi, hpath⟩
  · simp at hpath

theorem productPaths_resolve {values : List (String × Value)} :
    ∀ path ∈ filteringPaths (productFields values), graph.Resolves product path := by
  intro path hpath
  have resolves : ∀ i ∈ productIntents, ∀ path ∈ i.paths,
      (graph.entityAt? product (relationshipsOf path)).any
        (fun e => e.columns.contains (attributeOf path)) = true := by decide
  obtain ⟨i, hi, hpath⟩ := mem_productIntents hpath
  obtain ⟨e, he, hcolumn⟩ := (Option.any_eq_true _ _).mp (resolves i hi path hpath)
  exact ⟨e, he, by simpa using hcolumn⟩

/-! ## What a product search follows -/

/-- Some field filters on what a relationship of the product leads to. -/
def FiltersThrough (values : List (String × Value)) (relationship : String) : Prop :=
  ∃ path ∈ filteringPaths (productFields values), rootRelationship path = some relationship

theorem productFields_formed (values : List (String × Value)) :
    ∀ f ∈ productFields values, f.1.Formed := by
  intro f hf
  obtain ⟨i, hi, rfl⟩ := List.mem_map.mp hf
  exact (productIntents_sound i hi).toFormed

theorem hasToOne_product {name : String} : product.hasToOne name = true ↔ name = "category" := by
  have hrelationships : product.relationships = [toOne "category" "category" "category_id",
      ("reviews", ⟨"reviews", "review", "id", "product_id", true⟩)] := rfl
  rw [Entity.hasToOne, hrelationships]
  by_cases hcategory : name = "category"
  · subst hcategory
    decide
  · by_cases hreviews : name = "reviews"
    · subst hreviews
      decide
    · simp [List.lookup_cons, toOne, beq_eq_false_iff_ne.mpr hcategory,
        beq_eq_false_iff_ne.mpr hreviews, hcategory]

theorem fetches_isEmpty {values : List (String × Value)} {fetches : List Fetch}
    (h : fetches.map Fetch.name = (fetchHints (productFields values)).filter product.hasToOne) :
    fetches.isEmpty = false ↔ FiltersThrough values "category" := by
  have hhints : FiltersThrough values "category" ↔
      "category" ∈ fetchHints (productFields values) :=
    (mem_fetchHints (productFields_formed values)).symm
  rw [hhints, ← List.isEmpty_map (f := Fetch.name), h, ← Bool.not_eq_true, List.isEmpty_iff,
    List.filter_eq_nil_iff]
  simp only [hasToOne_product]
  constructor
  · intro hsome
    by_contra hnone
    exact hsome fun name hname e => hnone (e ▸ hname)
  · intro hmem hall
    exact hall "category" hmem rfl

section Keyed

variable {V : Type} [DecidableEq V] {db : Database V}

def KeyedById (db : Database V) : Prop := ∀ e ∈ graph.entities, KeyedBy "id" (db e.table)

theorem fetches_findOne (keyed : KeyedById db) {fetches : List Fetch}
    (targets : ∀ f ∈ fetches, f.Of graph product) : FindOne db fetches := by
  intro f hf owner
  obtain ⟨hvia, htoOne, htarget⟩ := targets f hf
  have hname : f.name = "category" := hasToOne_product.mp (targets f hf).hasToOne
  rw [hname] at hvia
  have hremote : "id" = f.via.remoteColumn :=
    congrArg Relationship.remoteColumn (Option.some.inj hvia)
  refine KeyedBy.card_related ?_ owner
  rw [← hremote]
  exact keyed f.target (EntityGraph.mem_of_entity?_eq_ok htarget)

/-- Of the trails that paths follow, only that of the reviews leads to several rows. -/
theorem card_candidates_le_one (keyed : KeyedById db) {values : List (String × Value)}
    (none : ¬ FiltersThrough values "reviews") :
    ∀ trail ∈ askedTrails (productFields values), ∀ owner : Sql.Row V,
      (candidates db graph product trail owner).card ≤ 1 := by
  intro trail htrail owner
  have toKeys : ∀ i ∈ productIntents, ∀ path ∈ i.paths, rootRelationship path ≠ some "reviews" →
      ∀ trail ∈ trailsOf path, (graph.linkAt? product trail).any
        (fun link => link.1.remoteColumn = "id" ∧ link.2 ∈ graph.entities) = true := by decide
  obtain ⟨hne, path, hpath, hprefix⟩ := mem_askedTrails.mp htrail
  obtain ⟨i, hi, hmem⟩ := mem_productIntents hpath
  have hother : rootRelationship path ≠ some "reviews" := fun e => none ⟨path, hpath, e⟩
  obtain ⟨⟨via, target⟩, hlink, hkey⟩ := (Option.any_eq_true _ _).mp
    (toKeys i hi path hmem hother trail (mem_trailsOf.mpr ⟨hne, hprefix⟩))
  obtain ⟨hremote, htarget⟩ := by simpa using hkey
  have hcard : (related db via target owner).card ≤ 1 :=
    KeyedBy.card_related (by rw [hremote]; exact keyed target htarget) owner
  obtain ⟨row, hrow⟩ := exists_relatedOrNull_eq hcard
  simp [candidates, hlink, hrow]

end Keyed

/-! ## Plain and eager searches -/

section Searches

variable {V : Type} [DecidableEq V]

theorem product_searches (values : List (String × Value)) (db : Database V) (keyed : KeyedById db)
    (reading : Sql.Reading V) :
    ∃ plain eager, (productQuery values false).result = .ok plain ∧
      (productQuery values true).result = .ok eager ∧
      plain.rows db reading = matchingRows db reading graph product (productFields values) ∧
      ∀ cells, (FiltersThrough values "category" →
          copies product (eager.rows db reading) cells =
            min 1 (copies product (plain.rows db reading) cells)) ∧
        (¬ FiltersThrough values "category" →
          copies product (eager.rows db reading) cells =
            copies product (plain.rows db reading) cells) := by
  have hroot : graph.entity? "product" = .ok product := rfl
  have hread : (IntentCache.empty.read (.declared productSearch)).result = .ok productIntents :=
    read_of_faithful (faithful_empty _) productSearch_intents?
  have hfields := readFields?_eq_ok productIntents (read?_productSearch values)
  have formed : ∀ i ∈ productIntents, i.Formed := fun i hi => (productIntents_sound i hi).toFormed
  have hcriteria := compile_sound hread formed hfields
  obtain ⟨c, joins, reached, hplain, searched⟩ :=
    exists_searchedBy hroot productIntents_sound hread hfields productPaths_resolve reading
  obtain ⟨fetches, hnames, htargets, ⟨x, hfailed, _⟩ | ⟨plain, hplain', _, heager⟩⟩ :=
    eager_alike graph_constructed hroot hcriteria
  · rw [hplain] at hfailed
    cases hfailed
  · rw [hplain] at hplain'
    obtain rfl := Except.ok.inj hplain'
    refine ⟨_, _, hplain, heager, searched.rows_eq db, fun cells => ?_⟩
    rw [searched.rows_eq db, searched.eager_copies (fetches_findOne keyed htargets) (by decide)
      (keyed product (by decide))]
    refine ⟨fun h => ?_, fun h => ?_⟩
    · rw [(fetches_isEmpty hnames).mpr h]
      rfl
    · rw [← fetches_isEmpty hnames, Bool.not_eq_false] at h
      rw [h]
      rfl

/-- A product has as many copies in the eager search as in the plain one, unless that is two or more
and a field filters through the category; then it has one. -/
theorem eager_search_copies (values : List (String × Value)) (db : Database V)
    (keyed : KeyedById db) (reading : Sql.Reading V) :
    ∃ plain eager, (productQuery values false).result = .ok plain ∧
      (productQuery values true).result = .ok eager ∧
      ∀ cells,
        (copies product (eager.rows db reading) cells =
            copies product (plain.rows db reading) cells ↔
          ¬ (FiltersThrough values "category" ∧
            2 ≤ copies product (plain.rows db reading) cells)) ∧
        (FiltersThrough values "category" →
          copies product (eager.rows db reading) cells =
            min 1 (copies product (plain.rows db reading) cells)) ∧
        (2 ≤ copies product (plain.rows db reading) cells → FiltersThrough values "reviews") := by
  obtain ⟨plain, eager, hplain, heager, hrows, hcopies⟩ := product_searches values db keyed reading
  refine ⟨plain, eager, hplain, heager, fun cells => ⟨?_, (hcopies cells).1, ?_⟩⟩
  · by_cases hcategory : FiltersThrough values "category"
    · rw [(hcopies cells).1 hcategory]
      simp only [hcategory, true_and]
      omega
    · simp [hcategory, (hcopies cells).2 hcategory]
  · intro htwo
    by_contra hnone
    have hle : copies product (plain.rows db reading) cells ≤ 1 := by
      rw [hrows]
      exact copies_le_one (by decide) (keyed product (by decide))
        (card_candidates_le_one keyed hnone) cells
    omega

end Searches

/-! ## A product with two matching reviews -/

def rowOf (cells : List (String × String)) : Sql.Row String := fun name => cells.lookup name

def twoReviews : Database String
  | "products" => {rowOf [("id", "1"), ("name", "Phone"), ("category_id", "2")]}
  | "categories" => {rowOf [("id", "2"), ("name", "Phones")]}
  | "reviews" =>
      {rowOf [("id", "3"), ("product_id", "1"), ("rating", "4")],
        rowOf [("id", "4"), ("product_id", "1"), ("rating", "5")]}
  | _ => 0

def acceptsAll : Sql.Reading String := fun _ cell => if cell.isSome then .yes else .unknown

def ratedPhones : List (String × Value) :=
  [("category_name", .text "phon"), ("rating", .range (some (.int 4)) none)]

def phoneCells : List (Cell String) :=
  product.columns.map (rowOf [("id", "1"), ("name", "Phone"), ("category_id", "2")])

theorem twoReviews_keyed : KeyedById twoReviews := by
  intro e he
  simp only [graph, List.mem_cons, List.not_mem_nil, or_false] at he
  rcases he with rfl | rfl | rfl | rfl | rfl
  all_goals
    refine ⟨?_, by decide⟩
    simp [twoReviews, product, category, department, employee, review, rowOf]

theorem eager_search_copies_twoReviews :
    KeyedById twoReviews ∧
      ∃ plain eager, (productQuery ratedPhones false).result = .ok plain ∧
        (productQuery ratedPhones true).result = .ok eager ∧
        ∀ cells,
          (copies product (eager.rows twoReviews acceptsAll) cells =
              copies product (plain.rows twoReviews acceptsAll) cells ↔
            ¬ (FiltersThrough ratedPhones "category" ∧
              2 ≤ copies product (plain.rows twoReviews acceptsAll) cells)) ∧
          (FiltersThrough ratedPhones "category" →
            copies product (eager.rows twoReviews acceptsAll) cells =
              min 1 (copies product (plain.rows twoReviews acceptsAll) cells)) ∧
          (2 ≤ copies product (plain.rows twoReviews acceptsAll) cells →
            FiltersThrough ratedPhones "reviews") :=
  ⟨twoReviews_keyed, eager_search_copies ratedPhones twoReviews twoReviews_keyed acceptsAll⟩

/-- A product of a matching category with two matching reviews is returned twice by the plain
search and once by the eager one. -/
theorem eager_search_drops_copy :
    KeyedById twoReviews ∧
      ∃ plain eager, (productQuery ratedPhones false).result = .ok plain ∧
        (productQuery ratedPhones true).result = .ok eager ∧
        copies product (plain.rows twoReviews acceptsAll) phoneCells = 2 ∧
        copies product (eager.rows twoReviews acceptsAll) phoneCells = 1 := by
  obtain ⟨plain, eager, hplain, heager, hrows, hcopies⟩ :=
    product_searches ratedPhones twoReviews twoReviews_keyed acceptsAll
  have htwo : copies product (plain.rows twoReviews acceptsAll) phoneCells = 2 := by
    rw [hrows, copies_matchingRows]
    decide
  have hcategory : FiltersThrough ratedPhones "category" :=
    ⟨"category.name", by decide, by decide⟩
  refine ⟨twoReviews_keyed, plain, eager, hplain, heager, htwo, ?_⟩
  rw [(hcopies phoneCells).1 hcategory, htwo]
  rfl

end CatalogSearch.Catalog
