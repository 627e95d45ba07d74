import CatalogSearch.Proofs.Criteria.Traversal
import CatalogSearch.Proofs.Criteria.Walk
import CatalogSearch.Proofs.Sql.Names

/-!
# The condition of a predicate

`planned columnAt p` is the predicate `p` with a column for the path of each leaf, connectives of
one operand left out, and an empty conjunction as the condition that is always true.  Main
statement: `toExpression_planned`, that this is what a translation gives whenever it gives
something, whatever the paths and the query; from it come the parameters of the condition
(`parameters_planned`) and its columns (`columns_planned`).
-/

set_option autoImplicit false

namespace CatalogSearch.Criteria

namespace Predicate

mutual

def leaves : Predicate → List (String × Comparison)
  | .leaf path c => [(path, c)]
  | .unsupported _ _ => []
  | .anyOf operands => leavesOf operands
  | .allOf operands => leavesOf operands

def leavesOf : List Predicate → List (String × Comparison)
  | [] => []
  | p :: rest => p.leaves ++ leavesOf rest

end

end Predicate

end CatalogSearch.Criteria

namespace CatalogSearch.Sql

open Criteria

/-! ## Planned conditions -/

mutual

def planned (columnAt : String → Column) : Predicate → Condition
  | .leaf path c => .test (columnAt path) c
  | .unsupported _ _ => .truth
  | .anyOf operands => gathered .any (plannedAll columnAt operands)
  | .allOf operands => gathered .all (plannedAll columnAt operands)

def plannedAll (columnAt : String → Column) : List Predicate → List Condition
  | [] => []
  | p :: rest => planned columnAt p :: plannedAll columnAt rest

end

theorem parametersOf_eq_flatMap : ∀ cs : List Condition,
    Condition.parametersOf cs = cs.flatMap Condition.parameters := by
  intro cs
  induction cs with
  | nil => rfl
  | cons c rest ih => rw [Condition.parametersOf, ih, List.flatMap_cons]

theorem parameters_gathered (connective : Connective) (cs : List Condition) :
    (gathered connective cs).parameters = cs.flatMap Condition.parameters := by
  rcases cs with _ | ⟨first, _ | ⟨second, rest⟩⟩
  · rfl
  · simp [gathered]
  · simp only [gathered, Condition.parameters, parametersOf_eq_flatMap]

section Planned

variable (columnAt : String → Column)

mutual

theorem parameters_planned (p : Predicate) :
    (planned columnAt p).parameters = p.leaves.flatMap fun leaf => testParameters leaf.2 := by
  match p with
  | .leaf path c => simp [planned, Predicate.leaves, Condition.parameters]
  | .unsupported path c => rfl
  | .anyOf operands =>
      rw [planned, parameters_gathered, Predicate.leaves, parameters_plannedAll operands]
  | .allOf operands =>
      rw [planned, parameters_gathered, Predicate.leaves, parameters_plannedAll operands]

theorem parameters_plannedAll (ps : List Predicate) :
    (plannedAll columnAt ps).flatMap Condition.parameters =
      (Predicate.leavesOf ps).flatMap fun leaf => testParameters leaf.2 := by
  match ps with
  | [] => rfl
  | p :: rest =>
      rw [plannedAll, List.flatMap_cons, Predicate.leavesOf, List.flatMap_append,
        parameters_planned p, parameters_plannedAll rest]

end

mutual

theorem columns_planned (p : Predicate) :
    (planned columnAt p).columns = p.leaves.map fun leaf => columnAt leaf.1 := by
  match p with
  | .leaf path c => rfl
  | .unsupported path c => rfl
  | .anyOf operands =>
      rw [planned, Condition.columns_gathered, Predicate.leaves, columns_plannedAll operands]
  | .allOf operands =>
      rw [planned, Condition.columns_gathered, Predicate.leaves, columns_plannedAll operands]

theorem columns_plannedAll (ps : List Predicate) :
    (plannedAll columnAt ps).flatMap Condition.columns =
      (Predicate.leavesOf ps).map fun leaf => columnAt leaf.1 := by
  match ps with
  | [] => rfl
  | p :: rest =>
      rw [plannedAll, List.flatMap_cons, Predicate.leavesOf, List.map_append, columns_planned p,
        columns_plannedAll rest]

end

end Planned

mutual

theorem planned_congr {columnAt columnAt' : String → Column} (p : Predicate)
    (same : ∀ path ∈ p.paths, columnAt path = columnAt' path) :
    planned columnAt p = planned columnAt' p := by
  match p with
  | .leaf path c => rw [planned, planned, same path (List.mem_singleton_self path)]
  | .unsupported path c => rfl
  | .anyOf operands => rw [planned, planned, plannedAll_congr operands same]
  | .allOf operands => rw [planned, planned, plannedAll_congr operands same]

theorem plannedAll_congr {columnAt columnAt' : String → Column} (ps : List Predicate)
    (same : ∀ path ∈ Predicate.pathsOf ps, columnAt path = columnAt' path) :
    plannedAll columnAt ps = plannedAll columnAt' ps := by
  match ps with
  | [] => rfl
  | p :: rest =>
      obtain ⟨first, others⟩ := List.forall_mem_append.mp same
      rw [plannedAll, plannedAll, planned_congr p first, plannedAll_congr rest others]

end

/-! ## Translations give planned conditions -/

def columnIn (root : Position) (c : JoinCache Position) (path : String) : Column :=
  ⟨(placeIn root c path).qualifier, attributeOf path⟩

/-- A node that a query does not refuse for its shape. -/
def Shaped : Predicate → Prop
  | .leaf _ c => c ≠ .oneOf []
  | .unsupported _ _ => False
  | .anyOf operands => operands ≠ []
  | .allOf _ => True

mutual

theorem map_fst_leaves (p : Predicate) (shaped : p.Every Shaped) :
    p.leaves.map Prod.fst = p.paths := by
  match p with
  | .leaf path c => rfl
  | .unsupported path c => exact shaped.elim
  | .anyOf operands => exact map_fst_leavesOf operands shaped.2
  | .allOf operands => exact map_fst_leavesOf operands shaped.2

theorem map_fst_leavesOf (ps : List Predicate) (shaped : Predicate.EveryOf Shaped ps) :
    (Predicate.leavesOf ps).map Prod.fst = Predicate.pathsOf ps := by
  match ps with
  | [] => rfl
  | p :: rest =>
      rw [Predicate.leavesOf, List.map_append, map_fst_leaves p shaped.1,
        map_fst_leavesOf rest shaped.2, Predicate.pathsOf]

end

theorem plannedAll_ne_nil {columnAt : String → Column} {ps : List Predicate}
    (h : plannedAll columnAt ps ≠ []) : ps ≠ [] := by
  rintro rfl
  exact h rfl

section Translations

variable {root : Position}

theorem resolve_column {path : String} {a : Column} {t t' : Traversal Query Position}
    (h : resolve (sqlEngine root) path t = (.ok a, t')) :
    t.joined.Within t'.joined ∧ ∀ cache, t'.joined.Within cache → a = columnIn root cache path := by
  obtain ⟨hwithin, hcolumn⟩ := resolve_remembers (fun _ => rfl) h
  refine ⟨hwithin, fun cache hcache => ?_⟩
  obtain ⟨s, s', hget⟩ := hcolumn cache hcache
  obtain ⟨hmapped, _⟩ := Prod.mk.inj hget
  rcases hc : (placeIn root cache path).column? (attributeOf path) with x | column
  · simp [sqlEngine, hc, Except.mapError] at hmapped
  · simp only [sqlEngine, hc, Except.mapError, Except.ok.injEq] at hmapped
    rw [← hmapped, (position_column?_eq_ok.mp hc).2]
    rfl

mutual

theorem express_planned (p : Predicate) {c : Condition} {t t' : Traversal Query Position}
    (h : express (sqlEngine root) p t = (.ok c, t')) :
    p.Every Shaped ∧ t.joined.Within t'.joined ∧
      ∀ cache, t'.joined.Within cache → c = planned (columnIn root cache) p := by
  match p with
  | .leaf path comparison =>
      simp only [express] at h
      obtain ⟨a, t₁, hresolve, hengine⟩ := Call.bind_eq_ok.mp (Call.mapError_eq_ok.mp h)
      obtain ⟨s, hcompare, rfl⟩ := onEngine_eq_ok.mp hengine
      obtain ⟨hc, _⟩ := Prod.mk.inj hcompare
      obtain ⟨hne, rfl⟩ := compare?_eq_ok.mp hc
      obtain ⟨hwithin, hcolumn⟩ := resolve_column hresolve
      refine ⟨hne, hwithin, fun cache hcache => ?_⟩
      rw [planned, hcolumn cache hcache]
  | .unsupported path comparison =>
      simp only [express] at h
      obtain ⟨_, _, _, hfail⟩ := Call.bind_eq_ok.mp h
      simp [Call.fail] at hfail
  | .anyOf operands =>
      simp only [express] at h
      obtain ⟨cs, t₁, hall, hany⟩ := Call.bind_eq_ok.mp h
      obtain ⟨s, hgroup, rfl⟩ := onEngine_eq_ok.mp (Call.mapError_eq_ok.mp hany)
      obtain ⟨hgroup, _⟩ := Prod.mk.inj hgroup
      obtain ⟨hne, rfl⟩ := group?_eq_ok.mp hgroup
      obtain ⟨hshaped, hwithin, hplanned⟩ := expressAll_planned operands hall
      refine ⟨⟨?_, hshaped⟩, hwithin, fun cache hcache => ?_⟩
      · rw [hplanned _ (within_refl _)] at hne
        exact plannedAll_ne_nil hne
      · rw [planned, hplanned cache hcache]
  | .allOf [] =>
      simp only [express] at h
      obtain ⟨s, htruth, rfl⟩ := onEngine_eq_ok.mp (Call.mapError_eq_ok.mp h)
      obtain ⟨hc, _⟩ := Prod.mk.inj htruth
      obtain rfl := Except.ok.inj hc
      exact ⟨⟨trivial, trivial⟩, within_refl _, fun cache hcache => rfl⟩
  | .allOf (p :: rest) =>
      simp only [express] at h
      obtain ⟨d, t₁, hfirst, hrest⟩ := Call.bind_eq_ok.mp h
      obtain ⟨ds, t₂, hothers, hall⟩ := Call.bind_eq_ok.mp hrest
      obtain ⟨s, hgroup, rfl⟩ := onEngine_eq_ok.mp (Call.mapError_eq_ok.mp hall)
      obtain ⟨hgroup, _⟩ := Prod.mk.inj hgroup
      obtain ⟨_, rfl⟩ := group?_eq_ok.mp hgroup
      obtain ⟨hshaped, hwithin, hplanned⟩ := express_planned p hfirst
      obtain ⟨hshaped', hwithin', hplanned'⟩ := expressAll_planned rest hothers
      -- The later operands only add to the cache, so it still has the columns of the first one.
      refine ⟨⟨trivial, hshaped, hshaped'⟩, hwithin.trans hwithin', fun cache hcache => ?_⟩
      rw [planned, plannedAll, hplanned cache (hwithin'.trans hcache), hplanned' cache hcache]

theorem expressAll_planned (ps : List Predicate) {cs : List Condition}
    {t t' : Traversal Query Position} (h : expressAll (sqlEngine root) ps t = (.ok cs, t')) :
    Predicate.EveryOf Shaped ps ∧ t.joined.Within t'.joined ∧
      ∀ cache, t'.joined.Within cache → cs = plannedAll (columnIn root cache) ps := by
  match ps with
  | [] =>
      obtain ⟨hcs, rfl⟩ := Prod.mk.inj h
      obtain rfl := Except.ok.inj hcs
      exact ⟨trivial, within_refl _, fun cache hcache => rfl⟩
  | p :: rest =>
      simp only [expressAll] at h
      obtain ⟨d, t₁, hfirst, hrest⟩ := Call.bind_eq_ok.mp h
      obtain ⟨ds, t₂, hothers, hpure⟩ := Call.bind_eq_ok.mp hrest
      obtain ⟨hcs, rfl⟩ := Prod.mk.inj hpure
      obtain rfl := Except.ok.inj hcs
      obtain ⟨hshaped, hwithin, hplanned⟩ := express_planned p hfirst
      obtain ⟨hshaped', hwithin', hplanned'⟩ := expressAll_planned rest hothers
      refine ⟨⟨hshaped, hshaped'⟩, hwithin.trans hwithin', fun cache hcache => ?_⟩
      rw [plannedAll, hplanned cache (hwithin'.trans hcache), hplanned' cache hcache]

end

/-- What a translation gives is the planned condition, each path at the column that the translation
found for it. -/
theorem toExpression_planned {p : Predicate} {c : Condition} {q q' : Query}
    (h : toExpression (sqlEngine root) p q = (.ok c, q')) :
    p.Every Shaped ∧ ∃ columnAt : String → Column,
      (∀ path, (columnAt path).name = attributeOf path) ∧ c = planned columnAt p := by
  simp only [toExpression] at h
  rcases hrun : express (sqlEngine root) p ⟨q, .empty⟩ with ⟨x | d, t⟩
  · simp [hrun] at h
  · simp only [hrun, Prod.mk.injEq, Except.ok.injEq] at h
    obtain ⟨rfl, _⟩ := h
    obtain ⟨hshaped, _, hplanned⟩ := express_planned p hrun
    exact ⟨hshaped, columnIn root t.joined, fun _ => rfl, hplanned _ (within_refl _)⟩

end Translations

end CatalogSearch.Sql
