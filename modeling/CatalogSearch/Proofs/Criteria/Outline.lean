import CatalogSearch.Proofs.Criteria.Compilation
import CatalogSearch.Criteria.Build
import Mathlib.Data.Option.Basic
import Mathlib.Data.List.Forall2

/-!
# What compiling lets through of values

Two values have the same shape if they are of one kind and compiling cannot tell them apart: both
blank or neither, with as many items, with the same bounds.  The outline of a predicate is what is
left of it without the values.  Main statement: `compile_outline`, that instances of the same shape
compile to criteria with the same outline and the same hints, with the same reports, or fail alike.
-/

set_option autoImplicit false

namespace CatalogSearch

/-- Values of one kind that differ in what they hold only. -/
inductive Value.SameShape : Value → Value → Prop
  | null : SameShape .null .null
  | bool (a b : Bool) : SameShape (.bool a) (.bool b)
  | int (m n : Int) : SameShape (.int m) (.int n)
  | float (x y : Number.Binary64) : SameShape (.float x) (.float y)
  | decimal (d e : Number.Decimal) : SameShape (.decimal d) (.decimal e)
  | text {s t : String} (blank : Text.isBlank s = Text.isBlank t) : SameShape (.text s) (.text t)
  | moment (m n : Calendar.Moment) : SameShape (.moment m) (.moment n)
  | date (d e : Calendar.Date) : SameShape (.date d) (.date e)
  | bytes (bs cs : List UInt8) : SameShape (.bytes bs) (.bytes cs)
  | list {xs ys : List Value} (length : xs.length = ys.length) : SameShape (.list xs) (.list ys)
  | tuple {xs ys : List Value} (length : xs.length = ys.length) : SameShape (.tuple xs) (.tuple ys)
  | set {xs ys : List Value} (length : xs.length = ys.length) : SameShape (.set xs) (.set ys)
  | frozenset {xs ys : List Value} (length : xs.length = ys.length) :
      SameShape (.frozenset xs) (.frozenset ys)
  | dict (xs ys : List (String × Value)) : SameShape (.dict xs) (.dict ys)
  | range {a b c d : Option Value} (lower : a.isSome = c.isSome) (upper : b.isSome = d.isSome) :
      SameShape (.range a b) (.range c d)

namespace Criteria

/-- Instances of one type, the fields of which are read alike and hold values of the same shape. -/
structure Instance.SameShape (i j : Instance) : Prop where
  type : i.type = j.type
  fields : ∀ f ∈ i.type.fields, Option.Rel Value.SameShape (i.read? f.name) (j.read? f.name)

theorem sameShape_refl (v : Value) : v.SameShape v := by
  cases v with
  | null => exact .null
  | bool b => exact .bool b b
  | int n => exact .int n n
  | float x => exact .float x x
  | decimal d => exact .decimal d d
  | text s => exact .text rfl
  | moment m => exact .moment m m
  | date d => exact .date d d
  | bytes bs => exact .bytes bs bs
  | list xs => exact .list rfl
  | tuple xs => exact .tuple rfl
  | set xs => exact .set rfl
  | frozenset xs => exact .frozenset rfl
  | dict xs => exact .dict xs xs
  | range lower upper => exact .range rfl rfl

theorem lookup_sameShape (field : String) (rest : List (String × Value))
    {xs ys : List (String × Value)}
    (h : List.Forall₂ (fun a b => a.1 = b.1 ∧ a.2.SameShape b.2) xs ys) :
    Option.Rel Value.SameShape ((xs ++ rest).lookup field) ((ys ++ rest).lookup field) := by
  induction h with
  | nil =>
      rw [List.nil_append]
      rcases rest.lookup field with _ | v
      · exact .none
      · exact .some (sameShape_refl v)
  | @cons a b xs ys hab _ ih =>
      obtain ⟨key, v⟩ := a
      obtain ⟨_, w⟩ := b
      obtain ⟨rfl, hvw⟩ := hab
      by_cases hk : field = key
      · subst hk
        simpa [List.lookup_cons] using Option.Rel.some hvw
      · have hk' : (field == key) = false := by simpa using hk
        simpa only [List.cons_append, List.lookup_cons, hk'] using ih

theorem sameShape_ofValues (type : DescriptorType) {xs ys : List (String × Value)}
    (h : List.Forall₂ (fun a b => a.1 = b.1 ∧ a.2.SameShape b.2) xs ys) :
    (Instance.ofValues type xs).SameShape (Instance.ofValues type ys) where
  type := rfl
  fields f _ := lookup_sameShape f.name (defaultsOf type.fields) h

/-! ## Outlines -/

/-- A comparison without its values, of which it keeps the number. -/
def Comparison.outline : Comparison → Comparison
  | .equal _ => .equal .null
  | .contains _ => .contains ""
  | .between _ _ => .between .null .null
  | .atLeast _ => .atLeast .null
  | .atMost _ => .atMost .null
  | .oneOf values => .oneOf (List.replicate values.length .null)

namespace Predicate

mutual

def mapComparisons (f : Comparison → Comparison) : Predicate → Predicate
  | .leaf path c => .leaf path (f c)
  | .unsupported path c => .unsupported path c
  | .anyOf operands => .anyOf (mapComparisonsOf f operands)
  | .allOf operands => .allOf (mapComparisonsOf f operands)

def mapComparisonsOf (f : Comparison → Comparison) : List Predicate → List Predicate
  | [] => []
  | p :: rest => mapComparisons f p :: mapComparisonsOf f rest

end

theorem mapComparisonsOf_eq_map (f : Comparison → Comparison) : ∀ ps : List Predicate,
    mapComparisonsOf f ps = ps.map (mapComparisons f) := by
  intro ps
  induction ps with
  | nil => rfl
  | cons p rest ih => rw [mapComparisonsOf, ih, List.map_cons]

def outline (p : Predicate) : Predicate := p.mapComparisons Comparison.outline

end Predicate

def CompiledField.outline (c : CompiledField) : CompiledField :=
  ⟨c.predicate.map Predicate.outline, c.log⟩

def CompiledCriteria.outline (c : CompiledCriteria) : CompiledCriteria :=
  ⟨c.conjuncts.map Predicate.outline, c.hints⟩

/-! ## Fields of the same shape -/

theorem isBlank_eq {v w : Value} (h : v.SameShape w) : v.isBlank = w.isBlank := by
  cases h with
  | text blank => exact blank
  | _ => rfl

theorem textMatch_outline (path : String) (operation : Operation) (s t : String) :
    (textMatch path operation s).outline = (textMatch path operation t).outline := by
  cases operation <;> rfl

theorem compileTerm_outline (i : FieldIntent) {v w : Value} (h : v.SameShape w) :
    (compileTerm i v).outline = (compileTerm i w).outline := by
  cases h with
  | @text s t blank =>
      have hoperands : (i.paths.map fun path => textMatch path i.operation s).map
          Predicate.outline =
          (i.paths.map fun path => textMatch path i.operation t).map Predicate.outline := by
        rw [List.map_map, List.map_map]
        exact List.map_congr_left fun path _ => textMatch_outline path i.operation s t
      simp only [compileTerm, CompiledField.outline, Option.map_some, Predicate.outline,
        Predicate.mapComparisons, Predicate.mapComparisonsOf_eq_map]
      exact congrArg (fun ps => CompiledField.mk (some (.anyOf ps)) []) hoperands
  | _ => rfl

theorem boundsComparison_outline {a b c d : Option Value} (lower : a.isSome = c.isSome)
    (upper : b.isSome = d.isSome) :
    (boundsComparison a b).map Comparison.outline =
      (boundsComparison c d).map Comparison.outline := by
  cases a <;> cases c <;> cases lower <;> cases b <;> cases d <;> cases upper <;> rfl

theorem compileRange_outline (i : FieldIntent) {v w : Value} (h : v.SameShape w) :
    (compileRange i v).map CompiledField.outline =
      (compileRange i w).map CompiledField.outline := by
  cases h with
  | @range a b c d lower upper =>
      simp only [compileRange]
      rcases i.paths with _ | ⟨path, rest⟩
      · rfl
      · have hbounds := boundsComparison_outline lower upper
        have hleaf : ∀ o : Option Comparison,
            (o.map (Predicate.leaf path)).map Predicate.outline =
              (o.map Comparison.outline).map (Predicate.leaf path) := by
          intro o
          cases o <;> rfl
        simp only [Except.map, CompiledField.outline, hleaf, hbounds]
  | _ => rfl

theorem membership_outline (path : String) {xs ys : List Value} (h : xs.length = ys.length) :
    (membership path xs).map Predicate.outline = (membership path ys).map Predicate.outline := by
  cases xs with
  | nil =>
      obtain rfl := List.length_eq_zero_iff.mp h.symm
      rfl
  | cons x xs =>
      cases ys with
      | nil => simp at h
      | cons y ys =>
          simp only [membership, Option.map_some, Predicate.outline, Predicate.mapComparisons,
            Comparison.outline, h]

theorem compileSingle_outline (i : FieldIntent) {v w : Value} (h : v.SameShape w) :
    (compileSingle i v).map CompiledField.outline =
      (compileSingle i w).map CompiledField.outline := by
  simp only [compileSingle]
  rcases i.paths with _ | ⟨path, rest⟩
  · rfl
  · have hitems : ∀ {xs ys : List Value}, xs.length = ys.length →
        (Except.ok (CompiledField.outline ⟨membership path xs, []⟩) : Except FieldError _) =
          .ok (CompiledField.outline ⟨membership path ys, []⟩) := by
      intro xs ys hlength
      simp only [CompiledField.outline, membership_outline path hlength]
    cases h with
    | @text s t blank =>
        have hmatch := textMatch_outline path i.operation s t
        exact congrArg (fun p => Except.ok (CompiledField.mk (some p) [])) hmatch
    | list length => exact hitems length
    | tuple length => exact hitems length
    | set length => exact hitems length
    | frozenset length => exact hitems length
    | _ => rfl

theorem compileField_outline (i : FieldIntent) {v w : Value} (h : v.SameShape w) :
    (compileField i v).map CompiledField.outline =
      (compileField i w).map CompiledField.outline := by
  simp only [compileField, isBlank_eq h]
  split
  · rfl
  · cases i.kind with
    | term => exact congrArg Except.ok (compileTerm_outline i h)
    | range => exact compileRange_outline i h
    | single => exact compileSingle_outline i h
    | none => rfl

theorem filtersOn_outline (i : FieldIntent) {v w : Value} (h : v.SameShape w) :
    filtersOn i v = filtersOn i w := by
  simp only [filtersOn, isBlank_eq h]
  split
  · rfl
  · cases i.kind with
    | term => cases h <;> rfl
    | range =>
        cases h with
        | range lower upper => simp only [hasBound, lower, upper]
        | _ => rfl
    | _ =>
      have hempty : ∀ {xs ys : List Value}, xs.length = ys.length →
          (!xs.isEmpty) = !ys.isEmpty := by
        intro xs ys hlength
        cases xs <;> cases ys <;> simp_all
      cases h with
      | list length => exact hempty length
      | tuple length => exact hempty length
      | set length => exact hempty length
      | frozenset length => exact hempty length
      | _ => rfl

/-! ## Instances of the same shape -/

def SameFields : List (FieldIntent × Value) → List (FieldIntent × Value) → Prop :=
  List.Forall₂ fun f g => f.1 = g.1 ∧ f.2.SameShape g.2

theorem readFields?_sameShape {i j : Instance} : ∀ intents : List FieldIntent,
    (∀ intent ∈ intents,
      Option.Rel Value.SameShape (i.read? intent.name) (j.read? intent.name)) →
    (∃ x, readFields? i intents = .error x ∧ readFields? j intents = .error x) ∨
      ∃ fs gs, readFields? i intents = .ok fs ∧ readFields? j intents = .ok gs ∧
        SameFields fs gs := by
  intro intents
  induction intents with
  | nil => intro _; exact Or.inr ⟨[], [], rfl, rfl, .nil⟩
  | cons intent rest ih =>
      intro alike
      obtain ⟨hfirst, hrest⟩ := List.forall_mem_cons.mp alike
      simp only [readFields?]
      rcases hi : i.read? intent.name with _ | v <;> rcases hj : j.read? intent.name with _ | w <;>
        rw [hi, hj] at hfirst
      · exact Or.inl ⟨_, rfl, rfl⟩
      · cases hfirst
      · cases hfirst
      · have hvw : v.SameShape w := by
          cases hfirst
          assumption
        rcases ih hrest with ⟨x, hi, hj⟩ | ⟨fs, gs, hi, hj, hfields⟩
        · exact Or.inl ⟨x, by rw [hi]; rfl, by rw [hj]; rfl⟩
        · refine Or.inr ⟨_, _, by rw [hi]; rfl, by rw [hj]; rfl, ?_⟩
          exact .cons ⟨rfl, hvw⟩ hfields

theorem read_sameShape {i j : Instance} {intent : FieldIntent}
    (h : Option.Rel Value.SameShape (i.read? intent.name) (j.read? intent.name)) :
    (∃ x, intent.read i = .error x ∧ intent.read j = .error x) ∨
      ∃ v w, intent.read i = .ok v ∧ intent.read j = .ok w ∧ v.SameShape w := by
  simp only [FieldIntent.read]
  revert h
  rcases i.read? intent.name with _ | v <;> rcases j.read? intent.name with _ | w <;> intro h
  · exact Or.inl ⟨_, rfl, rfl⟩
  · cases h
  · cases h
  · cases h with
    | some h => exact Or.inr ⟨v, w, rfl, rfl, h⟩

theorem conjunctsOf?_outline {i j : Instance} : ∀ intents : List FieldIntent,
    (∀ intent ∈ intents,
      Option.Rel Value.SameShape (i.read? intent.name) (j.read? intent.name)) →
    ∀ log : List LogRecord,
      (conjunctsOf? i intents log).2 = (conjunctsOf? j intents log).2 ∧
      (conjunctsOf? i intents log).1.map (List.map Predicate.outline) =
        (conjunctsOf? j intents log).1.map (List.map Predicate.outline) := by
  intro intents
  induction intents with
  | nil => intro _ log; exact ⟨rfl, rfl⟩
  | cons intent rest ih =>
      intro alike log
      obtain ⟨hfirst, hrest⟩ := List.forall_mem_cons.mp alike
      rcases read_sameShape hfirst with ⟨x, hi, hj⟩ | ⟨v, w, hi, hj, hvw⟩
      · rw [conjunctsOf?_of_unread hi, conjunctsOf?_of_unread hj]
        exact ⟨rfl, rfl⟩
      · rcases cases_of_map_eq (compileField_outline intent hvw) with
          ⟨x, hv, hw⟩ | ⟨c, d, hv, hw, hcd⟩
        · rw [conjunctsOf?_of_uncompiled hi hv, conjunctsOf?_of_uncompiled hj hw]
          exact ⟨rfl, rfl⟩
        · obtain ⟨hpredicate, hlog⟩ := CompiledField.mk.inj hcd
          rw [conjunctsOf?_of_compiled hi hv, conjunctsOf?_of_compiled hj hw, hlog]
          obtain ⟨hlogs, hresult⟩ := ih hrest (log ++ d.log)
          refine ⟨hlogs, ?_⟩
          rcases cases_of_map_eq hresult with ⟨x, hps, hqs⟩ | ⟨ps, qs, hps, hqs, hpsqs⟩
          · rw [hps, hqs]
            rfl
          · rw [hps, hqs]
            simp only [Except.map, List.map_append, ← Option.toList_map, hpredicate, hpsqs]

theorem fetchHints_sameShape {fs gs : List (FieldIntent × Value)} (h : SameFields fs gs) :
    fetchHints fs = fetchHints gs := by
  have hnames : (fs.filter fun f => filtersOn f.1 f.2).flatMap
        (fun f => f.1.paths.filterMap rootRelationship) =
      (gs.filter fun f => filtersOn f.1 f.2).flatMap
        (fun f => f.1.paths.filterMap rootRelationship) := by
    induction h with
    | nil => rfl
    | @cons f g fs gs hfg _ ih =>
        obtain ⟨hintent, hvw⟩ := hfg
        rw [List.filter_cons, List.filter_cons, hintent, filtersOn_outline g.1 hvw]
        split
        · rw [List.flatMap_cons, List.flatMap_cons, ih, hintent]
        · exact ih
  rw [fetchHints, fetchHints, hnames]

theorem names_of_read {cache : IntentCache} {type : DescriptorType} {intents : List FieldIntent}
    (faithful : ∀ d, type = .declared d → cache.Faithful d)
    (h : (cache.read type).result = .ok intents) :
    intents.map FieldIntent.name = type.fields.map Field.name := by
  cases type with
  | declared d =>
      rw [result_read (faithful d rfl)] at h
      exact (mem_of_intentsOf? (Declaration.intents?_eq_ok.mp h).2).1
  | foreign shown => cases h
  | unhashable kind => cases h

theorem compileFields_outline {i j : Instance} {intents : List FieldIntent}
    (alike : ∀ intent ∈ intents,
      Option.Rel Value.SameShape (i.read? intent.name) (j.read? intent.name)) :
    (compileFields i intents).2 = (compileFields j intents).2 ∧
    (compileFields i intents).1.map CompiledCriteria.outline =
      (compileFields j intents).1.map CompiledCriteria.outline := by
  rcases readFields?_sameShape intents alike with ⟨x, hi, hj⟩ | ⟨fs, gs, hi, hj, hfields⟩
  · rw [compileFields_of_unread hi, compileFields_of_unread hj]
    exact ⟨rfl, rfl⟩
  · rw [compileFields_of_read hi, compileFields_of_read hj, fetchHints_sameShape hfields]
    obtain ⟨hlog, hresult⟩ := conjunctsOf?_outline intents alike []
    refine ⟨hlog, ?_⟩
    rcases cases_of_map_eq hresult with ⟨x, hps, hqs⟩ | ⟨ps, qs, hps, hqs, hpsqs⟩
    · rw [hps, hqs]
    · rw [hps, hqs]
      simp only [Except.map, CompiledCriteria.outline, hpsqs]

/-- Instances of the same shape compile alike, but for the values in their predicates. -/
theorem compile_outline {cache : IntentCache} {i j : Instance} (same : i.SameShape j)
    (faithful : ∀ d, i.type = .declared d → cache.Faithful d) :
    (compile cache i).cache = (compile cache j).cache ∧
    (compile cache i).log = (compile cache j).log ∧
    (compile cache i).result.map CompiledCriteria.outline =
      (compile cache j).result.map CompiledCriteria.outline := by
  unfold compile
  rw [← same.type]
  dsimp only
  rcases hread : (cache.read i.type).result with x | intents
  · exact ⟨rfl, rfl, rfl⟩
  · have alike : ∀ intent ∈ intents,
        Option.Rel Value.SameShape (i.read? intent.name) (j.read? intent.name) := by
      intro intent hintent
      have hname : intent.name ∈ i.type.fields.map Field.name :=
        names_of_read faithful hread ▸ List.mem_map_of_mem hintent
      obtain ⟨f, hf, hname⟩ := List.mem_map.mp hname
      rw [← hname]
      exact same.fields f hf
    obtain ⟨hlog, hresult⟩ := compileFields_outline alike
    exact ⟨rfl, congrArg ((cache.read i.type).log ++ ·) hlog, hresult⟩

end Criteria

end CatalogSearch
