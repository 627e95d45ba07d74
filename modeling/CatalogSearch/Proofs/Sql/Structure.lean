import CatalogSearch.Proofs.Catalog.Graph
import CatalogSearch.Proofs.Sql.Grammar
import CatalogSearch.Proofs.Sql.Planned
import CatalogSearch.Proofs.Sql.SearchMeaning

/-!
# The structure of a condition's text

Main statement: `expression_reads_back`.  The text that a predicate is translated to has one
derivation, and this is the predicate itself, with connectives of one operand left out, an empty
conjunction as TRUE, and for each path the column that its attribute is read from.

The tables of a translation are numbered on from the joins that the query has, trail by trail in the
order in which the paths need them (`numberedWalk`).
-/

set_option autoImplicit false

namespace CatalogSearch.Sql

open Criteria

/-! ## The formula of a predicate -/

def formOf : Comparison → Form
  | .equal _ => .equal
  | .contains _ => .contains
  | .between _ _ => .between
  | .atLeast _ => .atLeast
  | .atMost _ => .atMost
  | .oneOf values => .oneOf (values.length - 1)

def collected (connective : Connective) : List Formula → Formula
  | [] => .truth
  | [f] => f
  | first :: second :: rest => .group connective first second rest

mutual

/-- The predicate as a formula, with a column for each path. -/
def formulaOf (column : String → String) : Predicate → Formula
  | .leaf path c => .atom (column path) (formOf c)
  | .unsupported _ _ => .truth
  | .anyOf operands => collected .any (formulasOf column operands)
  | .allOf operands => collected .all (formulasOf column operands)

def formulasOf (column : String → String) : List Predicate → List Formula
  | [] => []
  | p :: rest => formulaOf column p :: formulasOf column rest

end

theorem proper_collected (connective : Connective) : ∀ fs : List Formula,
    Formula.ProperAll fs → (collected connective fs).Proper := by
  intro fs proper
  rcases fs with _ | ⟨f, _ | ⟨g, rest⟩⟩
  · trivial
  · exact proper.1
  · exact ⟨proper.1, proper.2.1, proper.2.2⟩

mutual

theorem proper_formulaOf {column : String → String} (p : Predicate)
    (references : ∀ path ∈ p.paths, IsReference (column path)) :
    (formulaOf column p).Proper := by
  match p with
  | .leaf path c => exact references path (List.mem_singleton_self path)
  | .unsupported path c => trivial
  | .anyOf operands => exact proper_collected .any _ (properAll_formulasOf operands references)
  | .allOf operands => exact proper_collected .all _ (properAll_formulasOf operands references)

theorem properAll_formulasOf {column : String → String} (ps : List Predicate)
    (references : ∀ path ∈ Predicate.pathsOf ps, IsReference (column path)) :
    Formula.ProperAll (formulasOf column ps) := by
  match ps with
  | [] => trivial
  | p :: rest =>
      obtain ⟨first, others⟩ := List.forall_mem_append.mp references
      exact ⟨proper_formulaOf p first, properAll_formulasOf rest others⟩

end

/-! ## Texts of planned conditions -/

theorem joined_placeholders (v : Value) (values : List Value) :
    joined ", " ((v :: values).map fun _ => placeholder) ++ ")" = membersText values.length := by
  induction values generalizing v with
  | nil => rfl
  | cons w rest ih =>
      have hrest := ih w
      have hstart : placeholder ++ ", " = "%s, " := rfl
      simp only [List.map_cons, joined, List.length_cons, membersText] at hrest ⊢
      rw [hstart, String.append_assoc, hrest]

theorem testText_eq {c : Comparison} (h : c ≠ .oneOf []) (column : String) :
    testText column c = (formOf c).before ++ column ++ (formOf c).after := by
  have plain : ∀ after : String, column ++ after = "" ++ column ++ after := fun after => by
    rw [String.empty_append]
  cases c with
  | equal v => exact (String.append_assoc ..).trans (plain " = %s")
  | contains needle =>
      simp only [testText, String.append_assoc]
      rfl
  | between lower upper =>
      simp only [testText, String.append_assoc]
      exact plain " BETWEEN %s AND %s"
  | atLeast v => exact (String.append_assoc ..).trans (plain " >= %s")
  | atMost v => exact (String.append_assoc ..).trans (plain " <= %s")
  | oneOf values =>
      rcases values with _ | ⟨v, rest⟩
      · exact absurd rfl h
      · have hmembers := joined_placeholders v rest
        simp only [testText, String.append_assoc, hmembers]
        exact plain (" IN (" ++ membersText rest.length)

theorem textsOf_eq_map : ∀ cs : List Condition, Condition.textsOf cs = cs.map Condition.text := by
  intro cs
  induction cs with
  | nil => rfl
  | cons c rest ih => rw [Condition.textsOf, ih, List.map_cons]

theorem joined_restText (connective : Connective) : ∀ (fs : List Formula) (s : String),
    joined connective.between (s :: fs.map Formula.text) ++ ")" =
      s ++ Formula.restText connective fs := by
  intro fs
  induction fs with
  | nil => intro s; rfl
  | cons f rest ih =>
      intro s
      simp only [List.map_cons, joined, Formula.restText, String.append_assoc]
      rw [ih]

theorem text_gathered (connective : Connective) {cs : List Condition} {fs : List Formula}
    (h : cs.map Condition.text = fs.map Formula.text) :
    (gathered connective cs).text = (collected connective fs).text := by
  rcases cs with _ | ⟨c, _ | ⟨d, cs⟩⟩ <;> rcases fs with _ | ⟨f, _ | ⟨g, fs⟩⟩ <;>
    simp only [List.map_nil, List.map_cons, List.cons.injEq, reduceCtorEq, and_false,
      and_true] at h
  · rfl
  · exact h
  · obtain ⟨hc, hd, hcs⟩ := h
    have hrest := joined_restText connective fs g.text
    rw [Connective.between] at hrest
    simp only [gathered, collected, Condition.text, textsOf_eq_map, Formula.text, List.map_cons, hc,
      hd, hcs, joined, Connective.between, String.append_assoc] at hrest ⊢
    rw [hrest]

mutual

theorem text_planned {columnAt : String → Column} (p : Predicate) (shaped : p.Every Shaped) :
    (planned columnAt p).text = (formulaOf (fun path => (columnAt path).text) p).text := by
  match p with
  | .leaf path c => exact testText_eq shaped _
  | .unsupported path c => exact shaped.elim
  | .anyOf operands => exact text_gathered .any (texts_plannedAll operands shaped.2)
  | .allOf operands => exact text_gathered .all (texts_plannedAll operands shaped.2)

theorem texts_plannedAll {columnAt : String → Column} (ps : List Predicate)
    (shaped : Predicate.EveryOf Shaped ps) :
    (plannedAll columnAt ps).map Condition.text =
      (formulasOf (fun path => (columnAt path).text) ps).map Formula.text := by
  match ps with
  | [] => rfl
  | p :: rest =>
      rw [plannedAll, formulasOf, List.map_cons, List.map_cons, text_planned p shaped.1,
        texts_plannedAll rest shaped.2]

end

/-! ## Reading a text back -/

/-- The formula of the predicate is the only derivation of the text. -/
def ReadsBack (p : Predicate) (columnAt : String → Column) (text : String) : Prop :=
  ∀ f : Formula, f.Proper ∧ f.text = text ↔ f = formulaOf (fun path => (columnAt path).text) p

theorem isReference_column {c : Column} (h : Text.isIdentifier c.name = true) :
    IsReference c.text :=
  ⟨c.qualifier.text, c.name, c.qualifier.isIdentifier_text, h, rfl⟩

theorem readsBack_planned {g : EntityGraph} (hg : g.Constructed) {p : Predicate}
    (shaped : p.Every Shaped) {columnAt : String → Column}
    (hfrom : (planned columnAt p).From g) :
    ReadsBack p columnAt (planned columnAt p).text := by
  have references : ∀ path ∈ p.paths, IsReference (columnAt path).text := by
    intro path hpath
    rw [← map_fst_leaves p shaped] at hpath
    obtain ⟨leaf, hleaf, rfl⟩ := List.mem_map.mp hpath
    have hcolumn : columnAt leaf.1 ∈ (planned columnAt p).columns := by
      rw [columns_planned]
      exact List.mem_map_of_mem hleaf
    exact isReference_column ((hfrom _ hcolumn).isIdentifier hg)
  have proper := proper_formulaOf p references
  have htext : (planned columnAt p).text =
    (formulaOf (fun path => (columnAt path).text) p).text := text_planned p shaped
  intro f
  constructor
  · rintro ⟨hf, hftext⟩
    exact Formula.text_injective hf proper (hftext.trans htext)
  · rintro rfl
    exact ⟨proper, htext.symm⟩

/-! ## The tables of a translation -/

/-- The table that a trail leads to, when the trails are joined after `before` other joins. -/
def aliasOf (before : Nat) (trails : List (List String)) (trail : List String) : Alias :=
  if trail = [] then .root else .joined (before + trails.idxOf trail + 1)

def columnOf (before : Nat) (trails : List (List String)) (path : String) : Column :=
  ⟨aliasOf before trails (relationshipsOf path), attributeOf path⟩

/-- The positions reached are the ends of their trails, numbered on from the joins before. -/
structure Numbered (g : EntityGraph) (start q : Query) (reached : Reached Position) : Prop where
  graph : q.graph = g
  counted : q.lastAlias = start.lastAlias + reached.length
  ends : ∀ (i : Nat) (r : List String × Position), reached[i]? = some r →
    g.entityAt? start.root r.1 = some r.2.entity ∧
      r.2.qualifier = .joined (start.lastAlias + i + 1)

theorem getElem?_idxOf_of_lookup {trail : List String} {p : Position} :
    ∀ reached : Reached Position, reached.lookup trail = some p →
      reached[(reached.map Prod.fst).idxOf trail]? = some (trail, p) := by
  intro reached
  induction reached with
  | nil => intro h; cases h
  | cons r rest ih =>
      intro h
      obtain ⟨other, position⟩ := r
      by_cases ht : trail = other
      · subst ht
        simp only [List.lookup_cons_self, Option.some.injEq] at h
        simp [h]
      · have hother : (trail == other) = false := by simpa using ht
        simp only [List.lookup_cons, hother] at h
        simpa [List.idxOf_cons_ne _ (Ne.symm ht)] using ih h

namespace Numbered

variable {g : EntityGraph} {start q : Query} {reached : Reached Position}

theorem of_lookup (h : Numbered g start q reached) {trail : List String} {p : Position}
    (hlookup : reached.lookup trail = some p) :
    g.entityAt? start.root trail = some p.entity ∧
      p.qualifier =
        .joined (start.lastAlias + (reached.map Prod.fst).idxOf trail + 1) :=
  h.ends _ _ (getElem?_idxOf_of_lookup reached hlookup)

theorem entityAt (h : Numbered g start q reached) {trail : List String} {p : Position}
    (at_ : reachedAt? start.rootPosition reached trail = some p) :
    g.entityAt? start.root trail = some p.entity := by
  rw [reachedAt?] at at_
  by_cases hnil : trail = []
  · rw [if_pos hnil] at at_
    rw [← Option.some.inj at_, hnil]
    rfl
  · rw [if_neg hnil] at at_
    exact (h.of_lookup at_).1

theorem withJoin (h : Numbered g start q reached) {trail : List String} {target : Entity}
    (hend : g.entityAt? start.root trail = some target) (parent : Alias) (via : Relationship) :
    Numbered g start
      (q.withJoin parent via (q.nextPosition target .joined))
      (reached ++ [(trail, q.nextPosition target .joined)]) where
  graph := h.graph
  counted := by
    simp [Query.withJoin, Query.takeAlias, h.counted, Nat.add_assoc]
  ends := by
    intro i r hr
    rw [List.getElem?_append] at hr
    split at hr
    · exact h.ends i r hr
    · rename_i hlt
      obtain ⟨hi, rfl⟩ : i - reached.length = 0 ∧ (trail, _) = r := by
        simpa [List.getElem?_singleton] using hr
      have hi : i = reached.length := by omega
      refine ⟨hend, ?_⟩
      rw [Query.nextPosition, h.counted, hi]

end Numbered

def numberedWalk (g : EntityGraph) (start : Query) : Walk (sqlEngine start.rootPosition) where
  Holds q reached _ := Numbered g start q reached
  Fails _ _ _ := False
  Names _ _ _ := True
  Means _ _ _ := True
  Proper := Expressible g start.root
  clean h := h.1
  supported h := h
  mono _ _ := trivial
  join := by
    intro q reached visits path c parent name p numbered proper begins at_ fresh
    obtain ⟨_, ⟨e, he, _⟩, _⟩ := proper
    obtain ⟨later, hlater⟩ := begins
    -- The trail starts a path that leads to an entity, so its own last step is registered.
    rw [← hlater, g.entityAt?_append] at he
    obtain ⟨target, htarget, _⟩ := Option.bind_eq_some_iff.mp he
    have hstep := htarget
    rw [g.entityAt?_append, numbered.entityAt at_, Option.bind_some] at hstep
    obtain ⟨⟨via, _⟩, hvia, hlast⟩ := Option.bind_eq_some_iff.mp hstep
    obtain rfl := Option.some.inj hlast
    obtain ⟨known, found⟩ := EntityGraph.step?_eq_some.mp hvia
    have hjoin := join_eq_ok.mpr ⟨via, _, known, numbered.graph ▸ found, rfl, rfl⟩
    simp only [sqlEngine, hjoin]
    exact ⟨trivial, numbered.withJoin htarget p.qualifier via⟩
  get := by
    intro q reached visits path c p numbered proper at_
    obtain ⟨_, ⟨e, he, hcolumn⟩, _⟩ := proper
    rw [numbered.entityAt at_] at he
    obtain rfl := Option.some.inj he
    have hget := position_column?_eq_ok.mpr ⟨hcolumn, rfl⟩
    simp only [sqlEngine, columnCall, hget, Except.mapError]
    exact ⟨trivial, numbered⟩
  compare := by
    intro q reached visits path c a numbered proper _
    have hcompare : a.compare? c = .ok (.test a c) := compare?_eq_ok.mpr ⟨proper.2.2, rfl⟩
    simp only [sqlEngine, hcompare]
    exact ⟨trivial, numbered⟩
  any := by
    intro q reached visits ps cs numbered proper means
    have hgroup := group?_of_forall₂ means proper .any
    simp only [sqlEngine, hgroup]
    exact ⟨trivial, numbered⟩
  all := by
    intro q reached visits p ps cs numbered _ means
    have hgroup := group?_of_forall₂ means (List.cons_ne_nil p ps) .all
    simp only [sqlEngine, hgroup]
    exact ⟨trivial, numbered⟩
  truth := by
    intro q reached visits numbered _
    exact ⟨trivial, numbered⟩

theorem toExpression_columnOf {g : EntityGraph} {q : Query} (hgraph : q.graph = g) {p : Predicate}
    (expressible : p.Every (Expressible g q.root)) :
    ∃ q', toExpression (sqlEngine q.rootPosition) p q =
      (.ok (planned (columnOf q.lastAlias (newTrails [] (p.paths.flatMap trailsOf))) p),
        q') := by
  have ready : (numberedWalk g q).Ready ⟨q, .empty⟩ [] [] :=
    ⟨⟨hgraph, by simp, by simp⟩, rfl, by simp, by simp⟩
  have kept := Walk.express_kept p expressible ready
  rcases hrun : express (sqlEngine q.rootPosition) p ⟨q, .empty⟩ with ⟨x | c, t⟩
  · rw [hrun] at kept
    obtain ⟨_, _, _, _, hfails⟩ := kept
    exact hfails.elim
  · rw [hrun] at kept
    obtain ⟨reached, hreached, ready', _⟩ := kept
    rw [List.map_nil] at hreached
    rw [List.nil_append] at ready'
    obtain ⟨_, _, hplanned⟩ := express_planned p hrun
    have same : ∀ path ∈ p.paths, columnIn q.rootPosition t.joined path =
        columnOf q.lastAlias (newTrails [] (p.paths.flatMap trailsOf)) path := by
      intro path hpath
      simp only [columnIn, columnOf, aliasOf, placeIn]
      -- The root has its column without a join; other paths have their trails in the cache.
      by_cases hnil : relationshipsOf path = []
      · rw [if_pos hnil, if_pos hnil]
        rfl
      · have hmem : relationshipsOf path ∈ reached.map Prod.fst := by
          rw [hreached, mem_newTrails_of_paths]
          exact ⟨hnil, path, hpath, List.prefix_rfl⟩
        obtain ⟨position, hposition⟩ := exists_lookup_of_mem hmem
        have hclean := (ready'.clean _ (mem_of_lookup hposition)).1
        have hget := (ready'.stored.get? hclean hnil).trans hposition
        rw [if_neg hnil, if_neg hnil, hget, Option.getD_some,
          (ready'.holds.of_lookup hposition).2, hreached]
    refine ⟨t.engine, ?_⟩
    rw [toExpression, hrun, hplanned _ (within_refl _), planned_congr p same]

/-- Whatever a predicate is translated to, its text reads back as the predicate; and a predicate
that can be expressed is translated, each path at the table that its trail leads to. -/
theorem expression_reads_back {g : EntityGraph} (hg : g.Constructed) {q : Query} (hq : q.From g)
    (p : Predicate) :
    (∀ c q', toExpression (sqlEngine q.rootPosition) p q = (.ok c, q') →
      ∃ columnAt : String → Column, (∀ path, (columnAt path).name = attributeOf path) ∧
        ReadsBack p columnAt c.text) ∧
    (p.Every (Expressible g q.root) →
      ∃ c q', toExpression (sqlEngine q.rootPosition) p q = (.ok c, q') ∧
        ReadsBack p (columnOf q.joins.length (newTrails [] (p.paths.flatMap trailsOf)))
          c.text) := by
  constructor
  · intro c q' hto
    obtain ⟨hshaped, columnAt, hnames, rfl⟩ := toExpression_planned hto
    exact ⟨columnAt, hnames, readsBack_planned hg hshaped (from_of_toExpression hg hq hto).1⟩
  · intro expressible
    obtain ⟨q', hto⟩ := toExpression_columnOf hq.graph expressible
    rw [hq.counted] at hto
    have hshaped := (toExpression_planned hto).1
    exact ⟨_, q', hto, readsBack_planned hg hshaped (from_of_toExpression hg hq hto).1⟩

def toySearch : Predicate :=
  .allOf [.anyOf [.leaf "name" (.contains "toy"), .leaf "category.name" (.contains "toy")],
    .anyOf [.leaf "price" (.between (.int 1) (.int 9))], .allOf []]

theorem expression_reads_back_toySearch :
    ∃ c q', toExpression (sqlEngine ⟨Catalog.product, .root⟩) toySearch
        (.ofRoot Catalog.graph Catalog.product) = (.ok c, q') ∧
      ∀ f : Formula, f.Proper ∧ f.text = c.text ↔
        f = .group .all (.group .any (.atom "t0.name" .contains) (.atom "t1.name" .contains) [])
          (.atom "t0.price" .between) [.truth] := by
  have hfrom : (Query.ofRoot Catalog.graph Catalog.product).From Catalog.graph :=
    from_of_start? (rfl : Query.start? Catalog.graph "product" = .ok _)
  have expressible : toySearch.Every (Expressible Catalog.graph Catalog.product) := by
    have leaf : ∀ (path : String) (c : Comparison) (e : Entity),
        CleanPath path → Catalog.graph.entityAt? Catalog.product (relationshipsOf path) = some e →
        attributeOf path ∈ e.columns → c ≠ .oneOf [] →
        Expressible Catalog.graph Catalog.product (.leaf path c) :=
      fun path c e clean hend hcolumn hne => ⟨clean, ⟨e, hend, hcolumn⟩, hne⟩
    refine ⟨trivial, ⟨by simp [Expressible], ?_, ?_, trivial⟩, ⟨by simp [Expressible], ?_, trivial⟩,
      ⟨trivial, trivial⟩, trivial⟩
    · exact leaf _ _ Catalog.product (by decide) (by decide) (by decide) (by simp)
    · exact leaf _ _ Catalog.category (by decide) (by decide) (by decide) (by simp)
    · exact leaf _ _ Catalog.product (by decide) (by decide) (by decide) (by simp)
  exact (expression_reads_back Catalog.graph_constructed hfrom toySearch).2 expressible

end CatalogSearch.Sql
