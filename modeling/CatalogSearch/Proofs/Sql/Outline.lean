import CatalogSearch.Catalog.Search
import CatalogSearch.Proofs.Criteria.Correspondence
import CatalogSearch.Proofs.Criteria.Outline
import CatalogSearch.Sql.Engine

/-!
# What statements let through of values

Main statement: `buildQuery_sameShape`, that the searches of two instances of the same shape have
one text, one log and parameters of one number, or fail with one error.  Values are therefore bound
to a statement and never written into it.

A translation that sees the outlines of comparisons only makes the outlines of the conditions that
the translation of the comparisons makes (`outlineCorrespondence`), and predicates with one outline
are one predicate to it.
-/

set_option autoImplicit false

namespace CatalogSearch.Criteria

/-! ## Engines that see less of comparisons -/

section Through

variable {σ ε Pos Attr Expr : Type}

/-- The engine that makes `f c` of a comparison `c` before it compares. -/
def QueryEngine.through (e : QueryEngine σ ε Pos Attr Expr) (f : Comparison → Comparison) :
    QueryEngine σ ε Pos Attr Expr where
  root := e.root
  isNull := e.isNull
  join := e.join
  get := e.get
  fetch := e.fetch
  distinct := e.distinct
  compare a c := e.compare a (f c)
  all := e.all
  any := e.any
  truth := e.truth
  describe := e.describe

variable (e : QueryEngine σ ε Pos Attr Expr) (f : Comparison → Comparison)

theorem follow_through : ∀ (names : List String) (p : Pos) (trail : String),
    follow (e.through f) p trail names = follow e p trail names := by
  intro names
  induction names with
  | nil => intro p trail; rfl
  | cons name rest ih =>
      intro p trail
      simp only [follow, ih]
      rfl

theorem resolve_through (path : String) : resolve (e.through f) path = resolve e path := by
  simp only [resolve, follow_through]
  rfl

mutual

theorem express_through (p : Predicate) :
    express (e.through f) p = express e (p.mapComparisons f) := by
  match p with
  | .leaf path c =>
      simp only [Predicate.mapComparisons, express, resolve_through]
      rfl
  | .unsupported path c => simp only [Predicate.mapComparisons, express, resolve_through]
  | .anyOf operands =>
      simp only [Predicate.mapComparisons, express, expressAll_through operands]
      rfl
  | .allOf [] =>
      simp only [Predicate.mapComparisons, Predicate.mapComparisonsOf, express]
      rfl
  | .allOf (p :: rest) =>
      simp only [Predicate.mapComparisons, Predicate.mapComparisonsOf, express,
        express_through p, expressAll_through rest]
      rfl

theorem expressAll_through (ps : List Predicate) :
    expressAll (e.through f) ps = expressAll e (Predicate.mapComparisonsOf f ps) := by
  match ps with
  | [] => rfl
  | p :: rest =>
      simp only [Predicate.mapComparisonsOf, expressAll, express_through p,
        expressAll_through rest]

end

theorem toExpression_through (p : Predicate) (s : σ) :
    toExpression (e.through f) p s = toExpression e (p.mapComparisons f) s := by
  simp only [toExpression, express_through]

end Through

end CatalogSearch.Criteria

namespace CatalogSearch.Sql

open Criteria

/-! ## Outlines of conditions -/

namespace Condition

mutual

def outline : Condition → Condition
  | .truth => .truth
  | .test column c => .test column c.outline
  | .group connective operands => .group connective (outlines operands)

def outlines : List Condition → List Condition
  | [] => []
  | c :: rest => c.outline :: outlines rest

end

theorem outlines_eq_map : ∀ cs : List Condition, outlines cs = cs.map outline := by
  intro cs
  induction cs with
  | nil => rfl
  | cons c rest ih => rw [outlines, ih, List.map_cons]

theorem testText_outline (column : String) (c : Comparison) :
    testText column c.outline = testText column c := by
  cases c with
  | oneOf values => simp [Comparison.outline, testText]
  | _ => rfl

theorem length_testParameters_outline (c : Comparison) :
    (testParameters c.outline).length = (testParameters c).length := by
  cases c with
  | oneOf values => simp [Comparison.outline, testParameters]
  | _ => simp only [Comparison.outline, testParameters, List.length_cons, List.length_nil]

mutual

theorem text_outline (c : Condition) : c.outline.text = c.text := by
  match c with
  | .truth => rfl
  | .test column c => exact testText_outline column.text c
  | .group connective operands => simp only [outline, text, textsOf_outlines operands]

theorem textsOf_outlines (cs : List Condition) : textsOf (outlines cs) = textsOf cs := by
  match cs with
  | [] => rfl
  | c :: rest => simp only [outlines, textsOf, text_outline c, textsOf_outlines rest]

end

mutual

theorem length_parameters_outline (c : Condition) :
    c.outline.parameters.length = c.parameters.length := by
  match c with
  | .truth => rfl
  | .test column c => exact length_testParameters_outline c
  | .group connective operands => exact length_parametersOf_outlines operands

theorem length_parametersOf_outlines (cs : List Condition) :
    (parametersOf (outlines cs)).length = (parametersOf cs).length := by
  match cs with
  | [] => rfl
  | c :: rest =>
      simp only [outlines, parametersOf, List.length_append, length_parameters_outline c,
        length_parametersOf_outlines rest]

end

theorem isTruth_outline (c : Condition) : c.outline.isTruth = c.isTruth := by
  cases c <;> rfl

theorem group?_outline (connective : Connective) (cs : List Condition) :
    group? connective (cs.map outline) = (group? connective cs).map outline := by
  rcases cs with _ | ⟨c, _ | ⟨d, rest⟩⟩
  · rfl
  · rfl
  · simp [group?, Except.map, outline, outlines_eq_map]

end Condition

theorem compare?_outline (column : Column) (c : Comparison) :
    column.compare? c.outline = (column.compare? c).map Condition.outline := by
  cases c with
  | oneOf values => cases values <;> rfl
  | _ => rfl

theorem select_of_outline_eq {c d : Condition} (h : c.outline = d.outline) (q : Query) :
    (q.select c).text = (q.select d).text ∧
      (q.select c).parameters.length = (q.select d).parameters.length := by
  have htext : c.text = d.text := by
    rw [← c.text_outline, h, d.text_outline]
  have htruth : c.isTruth = d.isTruth := by
    rw [← c.isTruth_outline, h, d.isTruth_outline]
  have hlength : c.parameters.length = d.parameters.length := by
    rw [← c.length_parameters_outline, h, d.length_parameters_outline]
  have hwhere : Select.whereText c = Select.whereText d := by
    rw [Select.whereText, Select.whereText, htruth, htext]
  refine ⟨?_, hlength⟩
  simp only [Select.text, Query.select, hwhere]
  rfl

/-! ## Translations of outlines -/

theorem alike_of_outline {r : Except QueryError Condition} {r' : Except QueryError Condition}
    (q : Query) (h : r' = r.map Condition.outline) :
    Alike Eq (fun c d => d = c.outline) (r, q) (r', q) := by
  subst h
  cases r with
  | error x => exact ⟨rfl, rfl⟩
  | ok c => exact ⟨rfl, rfl⟩

theorem map_outline_of_forall₂ {cs ds : List Condition}
    (h : List.Forall₂ (fun c d => d = c.outline) cs ds) : ds = cs.map Condition.outline := by
  induction h with
  | nil => rfl
  | cons hcd _ ih => rw [hcd, ih, List.map_cons]

def outlineCorrespondence (root : Position) :
    Correspondence (sqlEngine root) ((sqlEngine root).through Comparison.outline) where
  State := Eq
  Place := Eq
  Name := Eq
  Term c d := d = c.outline
  root := rfl
  isNull _ := rfl
  join := by
    rintro q _ p _ name rfl rfl
    exact Alike.refl _
  get := by
    rintro q _ p _ name rfl rfl
    exact Alike.refl _
  compare := by
    rintro q _ a _ c rfl rfl
    exact alike_of_outline q (compare?_outline a c)
  all := by
    rintro q _ cs ds rfl h
    obtain rfl := map_outline_of_forall₂ h
    exact alike_of_outline q (Condition.group?_outline .all cs)
  any := by
    rintro q _ cs ds rfl h
    obtain rfl := map_outline_of_forall₂ h
    exact alike_of_outline q (Condition.group?_outline .any cs)
  truth := by
    rintro q _ rfl
    exact ⟨rfl, rfl⟩

theorem toExpression_outline {root : Position} {p p' : Predicate} (h : p.outline = p'.outline)
    (q : Query) :
    Alike Eq (fun c d => c.outline = d.outline) (toExpression (sqlEngine root) p q)
      (toExpression (sqlEngine root) p' q) := by
  have first := (outlineCorrespondence root).toExpression_alike p (rfl : q = q)
  have second := (outlineCorrespondence root).toExpression_alike p' (rfl : q = q)
  rw [toExpression_through] at first second
  change Alike Eq _ _ (toExpression (sqlEngine root) p.outline q) at first
  change Alike Eq _ _ (toExpression (sqlEngine root) p'.outline q) at second
  rw [h] at first
  exact first.join second fun c d d' hc hd => hc.symm.trans hd

theorem buildCompiled_outline {root : Position} {c d : CompiledCriteria}
    (h : c.outline = d.outline) (eager : Bool) (q : Query) :
    (buildCompiled (sqlEngine root) eager c q).2 = (buildCompiled (sqlEngine root) eager d q).2 ∧
    Alike Eq (fun x y => x.outline = y.outline) (buildCompiled (sqlEngine root) eager c q).1
      (buildCompiled (sqlEngine root) eager d q).1 := by
  obtain ⟨hconjuncts, hhints⟩ := CompiledCriteria.mk.inj h
  have hpredicate : c.predicate.outline = d.predicate.outline := by
    simp only [CompiledCriteria.predicate, Predicate.outline, Predicate.mapComparisons,
      Predicate.mapComparisonsOf_eq_map]
    exact congrArg Predicate.allOf hconjuncts
  simp only [buildCompiled, hhints]
  refine ⟨trivial, Alike.bind (Alike.refl _) ?_⟩
  rintro _ _ q' _ rfl rfl
  exact toExpression_outline hpredicate q'

/-! ## Searches -/

/-- Searches that differ in the values that are bound only. -/
structure SearchRun.SameShape (first second : SearchRun) : Prop where
  cache : first.cache = second.cache
  log : first.log = second.log
  result : (∃ x, first.result = .error x ∧ second.result = .error x) ∨
    ∃ s t, first.result = .ok s ∧ second.result = .ok t ∧ s.text = t.text ∧
      s.parameters.length = t.parameters.length

/-- No value reaches the text of a search, its log or its error. -/
theorem buildQuery_sameShape {cache : IntentCache} {i j : Instance} (same : i.SameShape j)
    (faithful : ∀ d, i.type = .declared d → cache.Faithful d) (g : EntityGraph)
    (entity : String) (eager : Bool) :
    (buildQuery cache i g entity eager).SameShape (buildQuery cache j g entity eager) := by
  obtain ⟨hcache, hlog, hresult⟩ := compile_outline same faithful
  unfold buildQuery
  rcases Query.start? g entity with x | q
  · exact ⟨rfl, rfl, Or.inl ⟨_, rfl, rfl⟩⟩
  · unfold build
    rcases cases_of_map_eq hresult with ⟨x, hi, hj⟩ | ⟨c, d, hi, hj, hcd⟩
    · simp only [hi, hj]
      exact ⟨hcache, hlog, Or.inl ⟨_, rfl, rfl⟩⟩
    · obtain ⟨hlogs, hruns⟩ := @buildCompiled_outline q.rootPosition _ _ hcd eager q
      simp only [hi, hj]
      refine ⟨hcache, by rw [hlog, hlogs], ?_⟩
      rcases hc : (buildCompiled (sqlEngine q.rootPosition) eager c q).1 with ⟨x | c', q'⟩ <;>
        rcases hd : (buildCompiled (sqlEngine q.rootPosition) eager d q).1 with ⟨y | d', q''⟩ <;>
        rw [hc, hd] at hruns <;> simp only [hc, hd]
      · obtain ⟨rfl, rfl⟩ := hruns
        exact Or.inl ⟨_, rfl, rfl⟩
      · exact hruns.elim
      · exact hruns.elim
      · obtain ⟨houtline, rfl⟩ := hruns
        exact Or.inr ⟨_, _, rfl, rfl, select_of_outline_eq houtline q'⟩

theorem buildQuery_sameShape_product :
    (Catalog.productQuery
      [("term", .text "drill"), ("rating", .range (some (.int 4)) none),
        ("status_list", .list [.text "active", .text "sold"])] true).SameShape
    (Catalog.productQuery
      [("term", .text "' OR 1=1 --"), ("rating", .range (some (.text "%s")) none),
        ("status_list", .list [.null, .text "); DROP TABLE products"])] true) := by
  refine buildQuery_sameShape (sameShape_ofValues _ ?_) (fun d _ => faithful_empty d) _ _ _
  exact .cons ⟨rfl, .text (by decide)⟩
    (.cons ⟨rfl, .range rfl rfl⟩ (.cons ⟨rfl, .list rfl⟩ .nil))

end CatalogSearch.Sql
