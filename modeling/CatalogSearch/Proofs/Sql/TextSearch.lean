import CatalogSearch.Proofs.Sql.Like
import CatalogSearch.Proofs.Sql.SearchMeaning
import CatalogSearch.Proofs.Text.Lowercase

/-!
# Searching for text

A field that is like a text searches for the lowercase of the text in the lowercase of the cells.
Where a cell has the text itself, its lowercase may still lack that of the text, because a sigma has
another form where a word ends.  Main statement: `text_search_finds`, that a search finds all cells
that have its text exactly if the sigmas of the text are settled; `final_sigma_missed` is a search
that does not.
-/

set_option autoImplicit false

namespace CatalogSearch.Sql

open Criteria

/-- How a database reads comparisons if its LOWER is the lowercase of the criteria: the lowercase of
a cell has to match the pattern of a needle, and nothing is known of a null.  The other comparisons
are read by `other`. -/
def textReading (other : Reading String) : Reading String
  | .contains needle, some cell =>
      if like? (containsPattern needle) (Text.lower cell) = some true then .yes else .no
  | .contains _, none => .unknown
  | c, cell => other c cell

theorem textReading_contains (other : Reading String) (needle : String) (cell : Cell String) :
    textReading other (.contains needle) cell = .yes ↔
      ∃ text, cell = some text ∧ needle.toList <:+: (Text.lower text).toList := by
  cases cell with
  | none => simp [textReading]
  | some text =>
      obtain ⟨found, hlike, hfound⟩ := like?_containsPattern needle (Text.lower text)
      rw [textReading, hlike]
      simp [hfound]

structure SearchesText (i : FieldIntent) : Prop extends FieldIntent.Sound i where
  like : i.operation = .like
  searching : i.kind = .term ∨ i.kind = .single

theorem SearchesText.comparison? {i : FieldIntent} (searches : SearchesText i) {text : String}
    (typed : Text.isBlank text = false) :
    i.comparison? (.text text) = some (.contains (Text.lower text)) := by
  have hblank : (Value.text text).isBlank = false := typed
  simp only [comparison?_eq, hblank, Bool.false_eq_true, if_false]
  rcases searches.searching with hkind | hkind
  · simp [hkind, searches.like, Value.text?, textComparison]
  · simp [hkind, searches.like, singleComparison?_eq, Value.items?, scalarComparison, textComparison]

theorem SearchesText.compileField {i : FieldIntent} (searches : SearchesText i) {text : String}
    (typed : Text.isBlank text = false) :
    compileField i (.text text) =
      .ok ⟨some (i.predicate (.contains (Text.lower text))), []⟩ := by
  have hblank : (Value.text text).isBlank = false := typed
  simp only [Criteria.compileField, hblank, Bool.false_eq_true, if_false]
  rcases searches.searching with hkind | hkind
  · rw [predicate_of_term hkind]
    simp only [hkind, compileTerm, textMatch_eq, searches.like, textComparison]
  · obtain ⟨path, hpaths⟩ := searches.single (by simp [hkind])
    rw [predicate_of_single hpaths (by simp [hkind])]
    simp only [hkind, compileSingle, hpaths, Value.items?, compileScalar, textMatch_eq,
      searches.like, textComparison]

/-- What a condition that is `holds` of the choices finds of a text. -/
structure FindsText (text : String) (paths : List String) (holds : Choice String → Truth) : Prop where
  /-- It is true where the lowercase of a cell has the lowercase of the text. -/
  lowered : ∀ choice, holds choice = .yes ↔ ∃ path ∈ paths, ∃ cell,
    cellAt choice path = some cell ∧ (Text.lower text).toList <:+: (Text.lower cell).toList
  /-- It is true where a cell has the text and its sigmas have their own forms there. -/
  sameSigmas : ∀ choice, ∀ path ∈ paths, ∀ cell before after, cellAt choice path = some cell →
    cell.toList = before ++ text.toList ++ after →
    Text.SameSigmas [] before.reverse text.toList [] after → holds choice = .yes
  /-- It is true wherever a cell has the text, exactly if the sigmas of the text are settled. -/
  complete : (∀ choice, ∀ path ∈ paths, ∀ cell, cellAt choice path = some cell →
    text.toList <:+: cell.toList → holds choice = .yes) ↔ Text.SigmasSettled text.toList
  /-- So it is if the text has no capital sigma. -/
  withoutSigma : 'Σ' ∉ text.toList → ∀ choice, ∀ path ∈ paths, ∀ cell,
    cellAt choice path = some cell → text.toList <:+: cell.toList → holds choice = .yes

theorem findsText_of_lowered {text : String} {paths : List String} {holds : Choice String → Truth}
    (hne : paths ≠ [])
    (lowered : ∀ choice, holds choice = .yes ↔ ∃ path ∈ paths, ∃ cell,
      cellAt choice path = some cell ∧ (Text.lower text).toList <:+: (Text.lower cell).toList) :
    FindsText text paths holds := by
  have complete : (∀ choice, ∀ path ∈ paths, ∀ cell, cellAt choice path = some cell →
      text.toList <:+: cell.toList → holds choice = .yes) ↔ Text.SigmasSettled text.toList := by
    rw [← Text.lower_infix_iff_settled]
    constructor
    · intro found cell hcell
      -- On the choice of rows that hold nothing but this cell, no other cell can be found.
      obtain ⟨path, hpath⟩ := List.exists_mem_of_ne_nil paths hne
      have hyes := found (fun _ _ => some cell) path hpath cell rfl hcell
      obtain ⟨_, _, _, hsame, hlower⟩ := (lowered _).mp hyes
      obtain rfl := Option.some.inj hsame
      exact hlower
    · intro found choice path hpath cell hcell htext
      exact (lowered choice).mpr ⟨path, hpath, cell, hcell, found cell htext⟩
  refine ⟨lowered, ?_, complete, fun h => complete.mpr (Text.sigmasSettled_of_not_mem h)⟩
  intro choice path hpath cell before after hcell htext same
  exact (lowered choice).mpr ⟨path, hpath, cell, hcell, Text.lower_infix_of_sameSigmas htext same⟩

/-- The condition of a field that searches for a text finds what has the lowercase of the text in
its lowercase, which is everything that has the text itself exactly if the sigmas of the text are
settled. -/
theorem text_search_finds (other : Reading String) {i : FieldIntent} (searches : SearchesText i)
    {text : String} (typed : Text.isBlank text = false) {g : EntityGraph} {root : Entity}
    (resolves : ∀ path ∈ i.paths, g.Resolves root path) :
    ∃ p c joins reached, compileField i (.text text) = .ok ⟨some p, []⟩ ∧
      toExpression (sqlEngine ⟨root, .root⟩) p (.ofRoot g root) = (.ok c, .ofJoins g root joins) ∧
      Laid g root reached joins ∧
      ∀ fetched, FindsText text i.paths fun choice =>
        c.holds (textReading other) (scopeOf fetched reached choice) := by
  have hcomparison := searches.comparison? typed
  have expressible : (i.predicate (.contains (Text.lower text))).Every (Expressible g root) := by
    have every : Predicate.EveryOf (Expressible g root) (predicates [(i, .text text)]) :=
      expressible_predicates (by simpa using searches.toSound)
        (by simpa [filteringPaths, hcomparison] using resolves)
    simp only [predicates, List.filterMap_cons, hcomparison] at every
    exact every.1
  obtain ⟨c, joins, reached, hto, laid, _, hholds⟩ :=
    toExpression_expresses g root (textReading other) _ expressible
  refine ⟨_, c, joins, reached, searches.compileField typed, hto, laid, fun fetched => ?_⟩
  refine findsText_of_lowered searches.nonempty fun choice => ?_
  rw [hholds fetched choice, truthOf_predicate searches.toSound]
  simp only [textReading_contains]

theorem text_search_finds_phone :
    ∃ p c joins reached,
      compileField ⟨"term", .term, ["name", "category.name"], .like⟩ (.text "Phone") =
        .ok ⟨some p, []⟩ ∧
      toExpression (sqlEngine ⟨Catalog.product, .root⟩) p (.ofRoot Catalog.graph Catalog.product) =
        (.ok c, .ofJoins Catalog.graph Catalog.product joins) ∧
      Laid Catalog.graph Catalog.product reached joins ∧
      ∀ fetched, FindsText "Phone" ["name", "category.name"] fun choice =>
        c.holds (textReading fun _ _ => .unknown) (scopeOf fetched reached choice) := by
  have clean : ∀ path ∈ ["name", "category.name"], CleanPath path := by decide
  have searches : SearchesText ⟨"term", .term, ["name", "category.name"], .like⟩ :=
    ⟨⟨⟨by simp, by simp, by simp⟩, clean⟩, rfl, .inl rfl⟩
  refine text_search_finds (fun _ _ => .unknown) searches (by decide) ?_
  intro path hpath
  simp only [List.mem_cons, List.not_mem_nil, or_false] at hpath
  rcases hpath with rfl | rfl
  · exact ⟨Catalog.product, by decide, by decide⟩
  · exact ⟨Catalog.category, by decide, by decide⟩

/-- A word that ends in a sigma is not found where a longer word begins with it. -/
theorem final_sigma_missed :
    compileField ⟨"name", .single, ["name"], .like⟩ (.text "ΝΟΜΟΣ") =
        .ok ⟨some (.leaf "name" (.contains "νομος")), []⟩ ∧
      toExpression (sqlEngine ⟨Catalog.product, .root⟩) (.leaf "name" (.contains "νομος"))
          (.ofRoot Catalog.graph Catalog.product) =
        (.ok (.test ⟨.root, "name"⟩ (.contains "νομος")),
          .ofRoot Catalog.graph Catalog.product) ∧
      "ΝΟΜΟΣ".toList <:+: "ΝΟΜΟΣΧΕΔΙΟ".toList ∧
      (Condition.test ⟨.root, "name"⟩ (.contains "νομος")).holds (textReading fun _ _ => .unknown)
        (fun _ _ => some "ΝΟΜΟΣΧΕΔΙΟ") = .no := by
  have lowered : Text.lower "ΝΟΜΟΣ" = "νομος" := by decide
  refine ⟨?_, rfl, by decide, by decide⟩
  rw [← lowered]
  rfl

end CatalogSearch.Sql
