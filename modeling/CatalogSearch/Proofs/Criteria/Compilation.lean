import CatalogSearch.Criteria.Compile
import CatalogSearch.Proofs.Call
import CatalogSearch.Proofs.Criteria.Trails
import CatalogSearch.Proofs.Value.Ascending

/-!
# What compiling makes of fields

A field that filters asks for one comparison (`FieldIntent.comparison?`), made at each of its
paths; a field that does not filter asks for none, and may report why (`FieldIntent.reports`).
Intents read from a declared type are formed as a marker or a field's name has it
(`formed_of_intents?`), and of such intents every value compiles (`compileField_eq`).

The fields are read for the hints first, and again to be compiled.  If they can be read, they are
read as from the list of their values (`readFields?`), and the conjuncts, the filtering paths and
the hints are all told by the comparisons that the fields ask for (`conjunctsOf?_eq`,
`pathsOf_predicates`, `mem_fetchHints`).
-/

set_option autoImplicit false

namespace CatalogSearch.Criteria

/-! ## The comparison of a field -/

def textComparison (operation : Operation) (s : String) : Comparison :=
  match operation with
  | .like => .contains (Text.lower s)
  | .equal => .equal (.text s)

def scalarComparison (operation : Operation) : Value → Comparison
  | .text s => textComparison operation s
  | v => .equal v

def termComparison? (operation : Operation) : Value → Option Comparison
  | .text s => some (textComparison operation s)
  | _ => none

def rangeComparison? : Value → Option Comparison
  | .range (some lower) (some upper) => some (.between lower upper)
  | .range (some lower) none => some (.atLeast lower)
  | .range none (some upper) => some (.atMost upper)
  | _ => none

def singleComparison? (operation : Operation) : Value → Option Comparison
  | .list items | .tuple items | .set items | .frozenset items =>
      if items.isEmpty then none else some (.oneOf items)
  | v => some (scalarComparison operation v)

def isSilent : Value → Bool
  | .null => true
  | .text s => s.toList.all Text.isBlankChar
  | _ => false

/-- The comparison that a value asks for. -/
def FieldIntent.comparison? (i : FieldIntent) (v : Value) : Option Comparison :=
  if isSilent v then none
  else
    match i.kind with
    | .term => termComparison? i.operation v
    | .range => rangeComparison? v
    | .single => singleComparison? i.operation v
    | .none => none

def FieldIntent.termReports (i : FieldIntent) (v : Value) : List LogRecord :=
  if v.text?.isSome then [] else [.termIgnored i.name v.kindName]

def FieldIntent.rangeReports (i : FieldIntent) : Value → List LogRecord
  | .range _ _ => []
  | v => [.rangeIgnored i.name v.kindName]

def FieldIntent.singleReports (i : FieldIntent) (v : Value) : List LogRecord :=
  if i.operation = .like ∧ v.text? = none ∧ v.items? = none then
    [.likeOnNonText i.name v.kindName]
  else []

def FieldIntent.reports (i : FieldIntent) (v : Value) : List LogRecord :=
  if v.isBlank then []
  else
    match i.kind with
    | .term => i.termReports v
    | .range => i.rangeReports v
    | .single => i.singleReports v
    | .none => []

/-- A comparison at the paths of an intent: at any of them for a term, else at the only one. -/
def FieldIntent.predicate (i : FieldIntent) (c : Comparison) : Predicate :=
  match i.kind with
  | .term => .anyOf (i.paths.map fun path => .leaf path c)
  | _ => .leaf (i.paths.headD "") c

def FieldIntent.outcome (i : FieldIntent) (v : Value) : CompiledField :=
  ⟨(i.comparison? v).map i.predicate, i.reports v⟩

def predicates (fields : List (FieldIntent × Value)) : List Predicate :=
  fields.filterMap fun f => (f.1.comparison? f.2).map f.1.predicate

def reportsOf (fields : List (FieldIntent × Value)) : List LogRecord :=
  fields.flatMap fun f => f.1.reports f.2

def filteringPaths (fields : List (FieldIntent × Value)) : List String :=
  fields.flatMap fun f => if (f.1.comparison? f.2).isSome then f.1.paths else []

/-- An intent that a marker or a field's own name gives. -/
structure FieldIntent.Formed (i : FieldIntent) : Prop where
  nonempty : i.paths ≠ []
  kind : i.kind ≠ .none
  single : i.kind ≠ .term → ∃ path, i.paths = [path]

/-- An intent whose paths have no empty segment either. -/
structure FieldIntent.Sound (i : FieldIntent) : Prop extends FieldIntent.Formed i where
  clean : ∀ path ∈ i.paths, CleanPath path

theorem predicate_of_term {i : FieldIntent} (h : i.kind = .term) :
    i.predicate = fun c => .anyOf (i.paths.map fun path => .leaf path c) := by
  funext c
  simp only [FieldIntent.predicate, h]

theorem predicate_of_single {i : FieldIntent} {path : String} (hpaths : i.paths = [path])
    (h : i.kind ≠ .term) : i.predicate = Predicate.leaf path := by
  funext c
  rcases hkind : i.kind with _ | _ | _ | _ <;>
    simp_all only [FieldIntent.predicate, List.headD_cons, ne_eq, not_true_eq_false]

theorem textComparison_ne_oneOf (operation : Operation) (s : String) (items : List Value) :
    textComparison operation s ≠ .oneOf items := by
  cases operation <;> simp [textComparison]

theorem termComparison?_eq (operation : Operation) (v : Value) :
    termComparison? operation v = v.text?.map (textComparison operation) := by
  cases v <;> rfl

theorem rangeComparison?_range (lower upper : Option Value) :
    rangeComparison? (.range lower upper) = boundsComparison lower upper := by
  cases lower <;> cases upper <;> rfl

theorem singleComparison?_eq (operation : Operation) (v : Value) :
    singleComparison? operation v =
      match v.items? with
      | none => some (scalarComparison operation v)
      | some [] => none
      | some items => some (.oneOf items) := by
  cases v with
  | list items => cases items <;> rfl
  | tuple items => cases items <;> rfl
  | set items => cases items <;> rfl
  | frozenset items => cases items <;> rfl
  | _ => rfl

theorem isSilent_eq (v : Value) : isSilent v = v.isBlank := by
  cases v <;> rfl

theorem comparison?_eq (i : FieldIntent) (v : Value) :
    i.comparison? v =
      if v.isBlank then none
      else
        match i.kind with
        | .term => v.text?.map (textComparison i.operation)
        | .range => rangeComparison? v
        | .single => singleComparison? i.operation v
        | .none => none := by
  rw [FieldIntent.comparison?, isSilent_eq, termComparison?_eq]

theorem rangeComparison?_ne_oneOf (v : Value) (items : List Value) :
    rangeComparison? v ≠ some (.oneOf items) := by
  cases v with
  | range lower upper => cases lower <;> cases upper <;> simp [rangeComparison?]
  | _ => simp [rangeComparison?]

theorem scalarComparison_ne_oneOf (operation : Operation) (v : Value) (items : List Value) :
    scalarComparison operation v ≠ .oneOf items := by
  cases v <;> simp [scalarComparison, textComparison_ne_oneOf]

theorem comparison?_ne_oneOf_nil (i : FieldIntent) (v : Value) :
    i.comparison? v ≠ some (.oneOf []) := by
  rw [comparison?_eq]
  split
  · simp
  · rcases i.kind with _ | _ | _ | _
    · simp [Option.map_eq_some_iff, textComparison_ne_oneOf]
    · exact rangeComparison?_ne_oneOf v []
    · simp only [singleComparison?_eq]
      rcases v.items? with _ | _ | ⟨first, rest⟩ <;> simp [scalarComparison_ne_oneOf]
    · simp

theorem textMatch_eq (path : String) (operation : Operation) (s : String) :
    textMatch path operation s = .leaf path (textComparison operation s) := by
  cases operation <;> rfl

theorem compileScalar_eq (i : FieldIntent) (path : String) {v : Value} (h : v.items? = none) :
    compileScalar i path v =
      ⟨some (.leaf path (scalarComparison i.operation v)), i.singleReports v⟩ := by
  cases v <;>
    simp [compileScalar, scalarComparison, textMatch_eq, FieldIntent.singleReports, Value.text?, h]

theorem compileTerm_eq (i : FieldIntent) (v : Value) :
    compileTerm i v =
      ⟨(v.text?.map (textComparison i.operation)).map fun c =>
        .anyOf (i.paths.map fun path => .leaf path c), i.termReports v⟩ := by
  cases v <;> simp [compileTerm, Value.text?, textMatch_eq, FieldIntent.termReports]

theorem compileRange_eq {i : FieldIntent} {path : String} (hpaths : i.paths = [path]) (v : Value) :
    compileRange i v =
      .ok ⟨(rangeComparison? v).map (Predicate.leaf path), i.rangeReports v⟩ := by
  cases v with
  | range lower upper =>
      simp [compileRange, rangeComparison?_range, hpaths, FieldIntent.rangeReports]
  | _ => rfl

theorem compileSingle_eq {i : FieldIntent} {path : String} (hpaths : i.paths = [path])
    (v : Value) :
    compileSingle i v =
      .ok ⟨(singleComparison? i.operation v).map (Predicate.leaf path), i.singleReports v⟩ := by
  simp only [compileSingle, hpaths, singleComparison?_eq]
  rcases hitems : v.items? with _ | items
  · simp only [compileScalar_eq i path hitems, Option.map_some]
  · have hreports : i.singleReports v = [] := by simp [FieldIntent.singleReports, hitems]
    rw [hreports]
    rcases items with _ | ⟨first, rest⟩ <;> rfl

theorem compileField_eq {i : FieldIntent} (formed : i.Formed) (v : Value) :
    compileField i v = .ok (i.outcome v) := by
  simp only [compileField, FieldIntent.outcome, comparison?_eq, FieldIntent.reports]
  split
  · rfl
  · rcases hkind : i.kind with _ | _ | _ | _
    · rw [predicate_of_term hkind]
      exact congrArg Except.ok (compileTerm_eq i v)
    · obtain ⟨path, hpaths⟩ := formed.single (by simp [hkind])
      rw [predicate_of_single hpaths (by simp [hkind])]
      exact compileRange_eq hpaths v
    · obtain ⟨path, hpaths⟩ := formed.single (by simp [hkind])
      rw [predicate_of_single hpaths (by simp [hkind])]
      exact compileSingle_eq hpaths v
    · exact absurd hkind formed.kind

/-! ## Reading the fields -/

def readFields? (instance_ : Instance) :
    List FieldIntent → Except CriteriaError (List (FieldIntent × Value))
  | [] => .ok []
  | i :: rest =>
      match instance_.read? i.name with
      | none => .error (.unreadable i.name)
      | some v => do
          let values ← readFields? instance_ rest
          return (i, v) :: values

theorem readFields?_cons_eq_ok {instance_ : Instance} {i : FieldIntent}
    {rest : List FieldIntent} {fields : List (FieldIntent × Value)} :
    readFields? instance_ (i :: rest) = .ok fields ↔
      ∃ v others, i.read instance_ = .ok v ∧ readFields? instance_ rest = .ok others ∧
        fields = (i, v) :: others := by
  simp only [readFields?, FieldIntent.read]
  rcases instance_.read? i.name with _ | v
  · simp
  · simp only [except_bind_eq_ok, Except.ok.injEq]
    simp [pure, Except.pure, eq_comm]

def fetchHints (fields : List (FieldIntent × Value)) : List String :=
  let filtering := fields.filter fun f => filtersOn f.1 f.2
  Value.sortedTexts (filtering.flatMap fun f => f.1.paths.filterMap rootRelationship)

theorem flatMap_rootsOf : ∀ fields : List (FieldIntent × Value),
    fields.flatMap (fun f => rootsOf f.1 f.2) =
      (fields.filter fun f => filtersOn f.1 f.2).flatMap
        fun f => f.1.paths.filterMap rootRelationship := by
  intro fields
  induction fields with
  | nil => rfl
  | cons f rest ih =>
      rw [List.flatMap_cons, ih, List.filter_cons, rootsOf]
      split
      · rw [List.flatMap_cons]
      · rw [List.nil_append]

theorem filteredRoots?_eq {instance_ : Instance} : ∀ intents : List FieldIntent,
    filteredRoots? instance_ intents =
      (readFields? instance_ intents).map fun fields =>
        fields.flatMap fun f => rootsOf f.1 f.2 := by
  intro intents
  induction intents with
  | nil => rfl
  | cons i rest ih =>
      simp only [filteredRoots?, readFields?, FieldIntent.read, ih]
      rcases instance_.read? i.name with _ | v
      · rfl
      · rcases readFields? instance_ rest with x | fields <;> rfl

theorem collectHints?_eq (instance_ : Instance) (intents : List FieldIntent) :
    collectHints? instance_ intents = (readFields? instance_ intents).map fetchHints := by
  rw [collectHints?, filteredRoots?_eq]
  rcases readFields? instance_ intents with x | fields
  · rfl
  · exact congrArg (fun roots => Except.ok (Value.sortedTexts roots)) (flatMap_rootsOf fields)

section Step

variable {instance_ : Instance} {i : FieldIntent} {v : Value}

theorem conjunctsOf?_of_unread {x : CriteriaError} (hread : i.read instance_ = .error x)
    (rest : List FieldIntent) (log : List LogRecord) :
    conjunctsOf? instance_ (i :: rest) log = (.error x, log) := by
  simp only [conjunctsOf?, Call.bind, hread]

variable (hread : i.read instance_ = .ok v)
include hread

theorem conjunctsOf?_of_uncompiled {x : FieldError} (h : compileField i v = .error x)
    (rest : List FieldIntent) (log : List LogRecord) :
    conjunctsOf? instance_ (i :: rest) log = (.error (.incompilable x), log) := by
  simp only [conjunctsOf?, Call.bind, hread, h, report]

theorem conjunctsOf?_of_compiled {c : CompiledField} (h : compileField i v = .ok c)
    (rest : List FieldIntent) (log : List LogRecord) :
    conjunctsOf? instance_ (i :: rest) log =
      ((conjunctsOf? instance_ rest (log ++ c.log)).1.map (c.predicate.toList ++ ·),
        (conjunctsOf? instance_ rest (log ++ c.log)).2) := by
  simp only [conjunctsOf?, Call.bind, hread, h, report]
  rcases conjunctsOf? instance_ rest (log ++ c.log) with ⟨x | ps, log'⟩ <;> rfl

end Step

theorem conjunctsOf?_eq {instance_ : Instance} : ∀ (intents : List FieldIntent)
    {fields : List (FieldIntent × Value)}, readFields? instance_ intents = .ok fields →
      (∀ i ∈ intents, i.Formed) → ∀ log : List LogRecord,
        conjunctsOf? instance_ intents log = (.ok (predicates fields), log ++ reportsOf fields) := by
  intro intents
  induction intents with
  | nil =>
      intro fields h _ log
      obtain rfl := Except.ok.inj h
      simp [conjunctsOf?, Call.pure, predicates, reportsOf]
  | cons i rest ih =>
      intro fields h formed log
      obtain ⟨hformed, hrest⟩ := List.forall_mem_cons.mp formed
      obtain ⟨v, others, hread, hothers, rfl⟩ := readFields?_cons_eq_ok.mp h
      rw [conjunctsOf?_of_compiled hread (compileField_eq hformed v), ih hothers hrest]
      simp only [FieldIntent.outcome, predicates, reportsOf, List.filterMap_cons, List.flatMap_cons,
        List.append_assoc, Except.map]
      rcases i.comparison? v with _ | c <;> rfl

/-! ## Filtering paths and hints -/

theorem pathsOf_map_leaf (c : Comparison) : ∀ paths : List String,
    Predicate.pathsOf (paths.map fun path => .leaf path c) = paths := by
  intro paths
  induction paths with
  | nil => rfl
  | cons path rest ih => simp [Predicate.pathsOf, Predicate.paths, ih]

theorem paths_predicate {i : FieldIntent} (formed : i.Formed) (c : Comparison) :
    (i.predicate c).paths = i.paths := by
  by_cases hterm : i.kind = .term
  · rw [predicate_of_term hterm]
    exact pathsOf_map_leaf c i.paths
  · obtain ⟨path, hpaths⟩ := formed.single hterm
    rw [predicate_of_single hpaths hterm, hpaths]
    rfl

theorem pathsOf_predicates : ∀ fields : List (FieldIntent × Value), (∀ f ∈ fields, f.1.Formed) →
    Predicate.pathsOf (predicates fields) = filteringPaths fields := by
  intro fields
  induction fields with
  | nil => intro _; rfl
  | cons f rest ih =>
      intro formed
      have hrest := ih fun f hf => formed f (List.mem_cons_of_mem _ hf)
      simp only [predicates, filteringPaths, List.filterMap_cons, List.flatMap_cons] at hrest ⊢
      rcases f.1.comparison? f.2 with _ | c
      · simpa using hrest
      · simp [Predicate.pathsOf, paths_predicate (formed f (by simp)), hrest]

theorem filtersOn_eq {i : FieldIntent} (formed : i.Formed) (v : Value) :
    filtersOn i v = (i.comparison? v).isSome := by
  simp only [filtersOn, comparison?_eq]
  split
  · rfl
  · rcases hkind : i.kind with _ | _ | _ | _
    · simp
    · cases v with
      | range lower upper => cases lower <;> cases upper <;> rfl
      | _ => rfl
    · simp only [singleComparison?_eq]
      rcases v.items? with _ | _ | ⟨first, rest⟩ <;> rfl
    · exact absurd hkind formed.kind

theorem mem_fetchHints {fields : List (FieldIntent × Value)} (formed : ∀ f ∈ fields, f.1.Formed)
    {name : String} :
    name ∈ fetchHints fields ↔
      ∃ path ∈ filteringPaths fields, rootRelationship path = some name := by
  simp only [fetchHints, Value.mem_sortedTexts, filteringPaths, List.mem_flatMap, List.mem_filter,
    List.mem_filterMap]
  constructor
  · rintro ⟨f, ⟨hf, hfilters⟩, path, hpath, hname⟩
    rw [filtersOn_eq (formed f hf)] at hfilters
    exact ⟨path, ⟨f, hf, by simpa [hfilters] using hpath⟩, hname⟩
  · rintro ⟨path, ⟨f, hf, hpath⟩, hname⟩
    split at hpath
    · rename_i hfilters
      exact ⟨f, ⟨hf, by rwa [filtersOn_eq (formed f hf)]⟩, path, hpath, hname⟩
    · simp at hpath

/-! ## Intents of declared types are sound -/

/-- A path that a marker can hold. -/
structure CheckedPath (path : String) : Prop where
  filled : Text.isBlank path = false
  clean : CleanPath path

theorem checkPath_eq_ok {v : Value} {path : String} :
    checkPath v = .ok path ↔ v = .text path ∧ CheckedPath path := by
  cases v with
  | text s =>
      simp only [checkPath, List.contains_iff_mem, Value.text.injEq]
      constructor
      · intro h
        split at h
        · cases h
        · rename_i filled
          split at h
          · cases h
          · rename_i clean
            obtain rfl := Except.ok.inj h
            exact ⟨rfl, by simpa using filled, clean⟩
      · rintro ⟨rfl, filled, clean⟩
        rw [if_neg (by simp [filled]), if_neg clean]
  | _ => simp [checkPath]

theorem checkPaths_eq_ok : ∀ (vs : List Value) {paths : List String},
    checkPaths vs = .ok paths ↔ vs = paths.map .text ∧ ∀ path ∈ paths, CheckedPath path := by
  intro vs
  induction vs with
  | nil =>
      intro paths
      cases paths <;> simp [checkPaths]
  | cons v rest ih =>
      intro paths
      simp only [checkPaths, except_bind_eq_ok, ih, checkPath_eq_ok]
      constructor
      · rintro ⟨path, ⟨rfl, checked⟩, others, ⟨rfl, hothers⟩, h⟩
        obtain rfl := Except.ok.inj h
        exact ⟨rfl, List.forall_mem_cons.mpr ⟨checked, hothers⟩⟩
      · rintro ⟨h, checked⟩
        cases paths with
        | nil => cases h
        | cons path others =>
            obtain ⟨rfl, rfl⟩ := List.cons.inj h
            obtain ⟨hpath, hothers⟩ := List.forall_mem_cons.mp checked
            exact ⟨path, ⟨rfl, hpath⟩, others, ⟨rfl, hothers⟩, rfl⟩

theorem MarkerSpec.checked {spec : MarkerSpec} {m : Marker} (h : spec.marker? = .ok m) :
    m.paths ≠ [] ∧ ∀ path ∈ m.paths, CheckedPath path := by
  cases spec with
  | term vs operation =>
      simp only [MarkerSpec.marker?] at h
      split at h
      · cases h
      · rename_i filled
        obtain ⟨paths, hpaths, h⟩ := except_bind_eq_ok.mp h
        obtain ⟨o, _, h⟩ := except_bind_eq_ok.mp h
        obtain rfl := Except.ok.inj h
        obtain ⟨rfl, checked⟩ := (checkPaths_eq_ok vs).mp hpaths
        exact ⟨by simpa [Marker.paths] using filled, checked⟩
  | range v =>
      obtain ⟨path, hpath, h⟩ := except_bind_eq_ok.mp h
      obtain rfl := Except.ok.inj h
      obtain ⟨_, checked⟩ := checkPath_eq_ok.mp hpath
      exact ⟨by simp [Marker.paths], by simpa [Marker.paths] using checked⟩
  | direct v operation =>
      obtain ⟨path, hpath, h⟩ := except_bind_eq_ok.mp h
      obtain ⟨o, _, h⟩ := except_bind_eq_ok.mp h
      obtain rfl := Except.ok.inj h
      obtain ⟨_, checked⟩ := checkPath_eq_ok.mp hpath
      exact ⟨by simp [Marker.paths], by simpa [Marker.paths] using checked⟩

theorem Marker.paths_intent (m : Marker) (field : String) : (m.intent field).paths = m.paths := by
  cases m <;> rfl

theorem formed_single {i : FieldIntent} {path : String} (hpaths : i.paths = [path])
    (hkind : i.kind ≠ .none) : i.Formed where
  nonempty := by simp [hpaths]
  kind := hkind
  single _ := ⟨path, hpaths⟩

theorem sound_single {i : FieldIntent} {path : String} (hpaths : i.paths = [path])
    (hkind : i.kind ≠ .none) (clean : CleanPath path) : i.Sound where
  toFormed := formed_single hpaths hkind
  clean := by simpa [hpaths] using clean

theorem Marker.sound_intent {spec : MarkerSpec} {m : Marker} (h : spec.marker? = .ok m)
    (field : String) : (m.intent field).Sound := by
  obtain ⟨nonempty, checked⟩ := MarkerSpec.checked h
  have clean : ∀ path ∈ (m.intent field).paths, CleanPath path := by
    intro path hpath
    rw [m.paths_intent] at hpath
    exact (checked path hpath).clean
  cases m with
  | term paths operation =>
      exact ⟨⟨nonempty, by simp [Marker.intent], by simp [Marker.intent]⟩, clean⟩
  | range path => exact ⟨formed_single rfl (by simp [Marker.intent]), clean⟩
  | direct path operation => exact ⟨formed_single rfl (by simp [Marker.intent]), clean⟩

theorem made_of_annotationsOf? : ∀ (specs : List AnnotationSpec) {annotations : List Annotation},
    annotationsOf? specs = .ok annotations → ∀ m, Annotation.marker m ∈ annotations →
      ∃ spec : MarkerSpec, spec.marker? = .ok m := by
  intro specs
  induction specs with
  | nil =>
      intro annotations h m hm
      obtain rfl := Except.ok.inj h
      simp at hm
  | cons spec rest ih =>
      intro annotations h m hm
      obtain ⟨first, hfirst, h⟩ := except_bind_eq_ok.mp h
      obtain ⟨others, hothers, h⟩ := except_bind_eq_ok.mp h
      obtain rfl := Except.ok.inj h
      rcases List.mem_cons.mp hm with rfl | hm
      · cases spec with
        | marker spec =>
            obtain ⟨made, hmade, hm⟩ := except_bind_eq_ok.mp hfirst
            cases hm
            exact ⟨spec, hmade⟩
        | other => cases hfirst
      · exact ih hothers m hm

def Field.Made (f : Field) : Prop :=
  ∀ m, Annotation.marker m ∈ f.annotations → ∃ spec : MarkerSpec, spec.marker? = .ok m

theorem made_of_fieldsOf? : ∀ (specs : List FieldSpec) {fields : List Field},
    fieldsOf? specs = .ok fields →
      fields.map Field.name = specs.map FieldSpec.name ∧ ∀ f ∈ fields, f.Made := by
  intro specs
  induction specs with
  | nil =>
      intro fields h
      obtain rfl := Except.ok.inj h
      simp
  | cons spec rest ih =>
      intro fields h
      obtain ⟨first, hfirst, h⟩ := except_bind_eq_ok.mp h
      obtain ⟨others, hothers, h⟩ := except_bind_eq_ok.mp h
      obtain rfl := Except.ok.inj h
      obtain ⟨annotations, hannotations, hfield⟩ := except_bind_eq_ok.mp hfirst
      obtain rfl := Except.ok.inj hfield
      obtain ⟨hnames, hmade⟩ := ih hothers
      have hspec : Field.Made ⟨spec.name, annotations, spec.default⟩ :=
        made_of_annotationsOf? _ hannotations
      exact ⟨by simp [hnames], List.forall_mem_cons.mpr ⟨hspec, hmade⟩⟩

theorem Field.intent?_name {f : Field} {i : FieldIntent} (h : f.intent? = .ok i) :
    i.name = f.name := by
  simp only [Field.intent?] at h
  rcases hmarkers : f.markers with _ | ⟨m, _ | ⟨other, others⟩⟩
  · simp only [hmarkers, Except.ok.injEq] at h
    rw [← h]
  · simp only [hmarkers, Except.ok.injEq] at h
    rw [← h]
    cases m <;> rfl
  · simp [hmarkers] at h

theorem Field.Made.formed {f : Field} (made : f.Made) {i : FieldIntent} (h : f.intent? = .ok i) :
    i.Formed ∧ (CleanPath f.name → i.Sound) := by
  simp only [Field.intent?] at h
  rcases hmarkers : f.markers with _ | ⟨m, _ | ⟨other, others⟩⟩
  · simp only [hmarkers, Except.ok.injEq] at h
    rw [← h]
    exact ⟨formed_single rfl (by simp), sound_single rfl (by simp)⟩
  · simp only [hmarkers, Except.ok.injEq] at h
    have hm : m ∈ f.markers := by simp [hmarkers]
    obtain ⟨attached, hattached, heq⟩ := List.mem_filterMap.mp hm
    cases attached with
    | marker made' =>
        obtain rfl := Option.some.inj heq
        obtain ⟨spec, hspec⟩ := made _ hattached
        have sound : i.Sound := h ▸ Marker.sound_intent hspec f.name
        exact ⟨sound.toFormed, fun _ => sound⟩
    | other => cases heq
  · simp [hmarkers] at h

theorem intentsOf?_eq_ok : ∀ (fields : List Field) {intents : List FieldIntent},
    intentsOf? fields = .ok intents ↔ List.Forall₂ (fun f i => f.intent? = .ok i) fields intents := by
  intro fields
  induction fields with
  | nil =>
      intro intents
      constructor
      · intro h
        obtain rfl := Except.ok.inj h
        exact .nil
      · rintro ⟨⟩
        rfl
  | cons f rest ih =>
      intro intents
      simp only [intentsOf?, except_bind_eq_ok, ih]
      constructor
      · rintro ⟨first, hfirst, others, hothers, h⟩
        obtain rfl := Except.ok.inj h
        exact .cons hfirst hothers
      · rintro (_ | ⟨hfirst, hothers⟩)
        exact ⟨_, hfirst, _, hothers, rfl⟩

theorem mem_of_intentsOf? {fields : List Field} {intents : List FieldIntent}
    (h : intentsOf? fields = .ok intents) :
    intents.map FieldIntent.name = fields.map Field.name ∧
      ∀ i ∈ intents, ∃ f ∈ fields, f.intent? = .ok i := by
  have each := (intentsOf?_eq_ok fields).mp h
  clear h
  induction each with
  | nil => simp
  | @cons f i rest others hfirst _ ih =>
      obtain ⟨hnames, hrest⟩ := ih
      refine ⟨by simp [hnames, Field.intent?_name hfirst], List.forall_mem_cons.mpr ⟨?_, ?_⟩⟩
      · exact ⟨f, by simp, hfirst⟩
      · intro other hother
        obtain ⟨g, hg, hintent⟩ := hrest other hother
        exact ⟨g, List.mem_cons_of_mem _ hg, hintent⟩

theorem Declaration.intents?_eq_ok {d : Declaration} {intents : List FieldIntent} :
    d.intents? = .ok intents ↔ d.resolvable = true ∧ intentsOf? d.fields = .ok intents := by
  simp only [Declaration.intents?]
  rcases d.resolvable <;> simp

/-- The intents of a type whose markers were made, one for each field; they are sound where the
fields' names have no empty segment. -/
theorem formed_of_intents? {key : Nat} {name : String} {specs : List FieldSpec} {d : Declaration}
    (hd : Declaration.ofFields? key name specs = .ok d) {intents : List FieldIntent}
    (h : d.intents? = .ok intents) :
    intents.map FieldIntent.name = specs.map FieldSpec.name ∧
      ∀ i ∈ intents, i.Formed ∧ (CleanPath i.name → i.Sound) := by
  obtain ⟨fields, hfields, hd⟩ := except_bind_eq_ok.mp hd
  obtain rfl := Except.ok.inj hd
  obtain ⟨_, hintents⟩ := Declaration.intents?_eq_ok.mp h
  obtain ⟨hnames, hmade⟩ := made_of_fieldsOf? specs hfields
  obtain ⟨hnames', hfrom⟩ := mem_of_intentsOf? hintents
  refine ⟨hnames'.trans hnames, fun i hi => ?_⟩
  obtain ⟨f, hf, hfi⟩ := hfrom i hi
  rw [Field.intent?_name hfi]
  exact (hmade f hf).formed hfi

theorem sound_of_intents? {key : Nat} {name : String} {specs : List FieldSpec} {d : Declaration}
    (hd : Declaration.ofFields? key name specs = .ok d)
    (clean : ∀ spec ∈ specs, CleanPath spec.name) {intents : List FieldIntent}
    (h : d.intents? = .ok intents) : ∀ i ∈ intents, i.Sound := by
  intro i hi
  obtain ⟨hnames, hformed⟩ := formed_of_intents? hd h
  have hname : i.name ∈ specs.map FieldSpec.name := hnames ▸ List.mem_map_of_mem hi
  obtain ⟨spec, hspec, hname⟩ := List.mem_map.mp hname
  exact (hformed i hi).2 (hname ▸ clean spec hspec)

/-! ## Compiled criteria -/

/-- A cache that knows a type only by what its declaration says. -/
def IntentCache.Faithful (cache : IntentCache) (d : Declaration) : Prop :=
  ∀ known, cache.entries.lookup d.key = some known → d.intents? = .ok known

theorem faithful_empty (d : Declaration) : IntentCache.empty.Faithful d := by
  intro known h
  cases h

theorem result_read {cache : IntentCache} {d : Declaration} (faithful : cache.Faithful d) :
    (cache.read (.declared d)).result = d.intents? := by
  simp only [IntentCache.read, IntentCache.readDeclared]
  rcases hknown : cache.entries.lookup d.key with _ | known
  · rcases d.intents? with x | intents <;> rfl
  · rw [faithful known hknown]

theorem read_of_faithful {cache : IntentCache} {d : Declaration} {intents : List FieldIntent}
    (faithful : cache.Faithful d) (h : d.intents? = .ok intents) :
    (cache.read (.declared d)).result = .ok intents :=
  (result_read faithful).trans h

theorem level_of_read (cache : IntentCache) (type : DescriptorType) :
    ∀ record ∈ (cache.read type).log, record.level = .debug := by
  cases type with
  | declared d =>
      simp only [IntentCache.read, IntentCache.readDeclared]
      rcases cache.entries.lookup d.key with _ | known
      · rcases d.intents? with x | intents
        · simp
        · simp [LogRecord.level]
      · simp
  | foreign shown => simp [IntentCache.read]
  | unhashable kind => simp [IntentCache.read]

theorem mem_of_readFields? {instance_ : Instance} : ∀ (intents : List FieldIntent)
    {fields : List (FieldIntent × Value)}, readFields? instance_ intents = .ok fields →
      ∀ f ∈ fields, f.1 ∈ intents := by
  intro intents
  induction intents with
  | nil =>
      intro fields h f hf
      obtain rfl := Except.ok.inj h
      simp at hf
  | cons i rest ih =>
      intro fields h f hf
      simp only [readFields?] at h
      split at h
      · cases h
      · obtain ⟨others, hothers, h⟩ := except_bind_eq_ok.mp h
        obtain rfl := Except.ok.inj h
        rcases List.mem_cons.mp hf with rfl | hf
        · simp
        · exact List.mem_cons_of_mem _ (ih hothers f hf)

theorem readFields?_eq_ok {instance_ : Instance} {value : FieldIntent → Value} :
    ∀ intents : List FieldIntent, (∀ i ∈ intents, instance_.read? i.name = some (value i)) →
      readFields? instance_ intents = .ok (intents.map fun i => (i, value i)) := by
  intro intents
  induction intents with
  | nil => intro _; rfl
  | cons i rest ih =>
      intro readable
      obtain ⟨hi, hrest⟩ := List.forall_mem_cons.mp readable
      simp [readFields?, hi, ih hrest, bind, Except.bind, pure, Except.pure]

theorem compileFields_of_unread {instance_ : Instance} {intents : List FieldIntent}
    {x : CriteriaError} (h : readFields? instance_ intents = .error x) :
    compileFields instance_ intents = (.error x, []) := by
  simp only [compileFields, collectHints?_eq, h, Except.map]

theorem compileFields_of_read {instance_ : Instance} {intents : List FieldIntent}
    {fields : List (FieldIntent × Value)} (h : readFields? instance_ intents = .ok fields) :
    compileFields instance_ intents =
      ((conjunctsOf? instance_ intents []).1.map (CompiledCriteria.mk · (fetchHints fields)),
        (conjunctsOf? instance_ intents []).2) := by
  simp only [compileFields, collectHints?_eq, h, Except.map]

theorem compile_eq_ok {cache : IntentCache} {instance_ : Instance} {criteria : CompiledCriteria} :
    (compile cache instance_).result = .ok criteria ↔
      ∃ intents fields conjuncts, (cache.read instance_.type).result = .ok intents ∧
        readFields? instance_ intents = .ok fields ∧
        (conjunctsOf? instance_ intents []).1 = .ok conjuncts ∧
        criteria = ⟨conjuncts, fetchHints fields⟩ := by
  simp only [compile]
  rcases (cache.read instance_.type).result with x | intents
  · simp
  · rcases hfields : readFields? instance_ intents with x | fields
    · simp [compileFields_of_unread hfields, hfields]
    · simp only [compileFields_of_read hfields, except_map_eq_ok]
      simp [hfields, eq_comm]

theorem hints_pairwise {cache : IntentCache} {i : Instance} {criteria : CompiledCriteria}
    (h : (compile cache i).result = .ok criteria) : criteria.hints.Pairwise (· < ·) := by
  obtain ⟨_, fields, _, _, _, _, rfl⟩ := compile_eq_ok.mp h
  exact Value.sortedTexts_pairwise _

theorem compile_sound {cache : IntentCache} {instance_ : Instance} {intents : List FieldIntent}
    {fields : List (FieldIntent × Value)}
    (hread : (cache.read instance_.type).result = .ok intents) (formed : ∀ i ∈ intents, i.Formed)
    (hfields : readFields? instance_ intents = .ok fields) :
    (compile cache instance_).result = .ok ⟨predicates fields, fetchHints fields⟩ := by
  have hconjuncts := conjunctsOf?_eq intents hfields formed []
  exact compile_eq_ok.mpr ⟨intents, fields, _, hread, hfields, congrArg Prod.fst hconjuncts, rfl⟩

end CatalogSearch.Criteria
