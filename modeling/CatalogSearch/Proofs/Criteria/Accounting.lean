import CatalogSearch.Proofs.Criteria.Hints
import CatalogSearch.Proofs.Criteria.Independence

/-!
# Fields accounted for

Whatever the fields of an instance hold, each gives a conjunct, or asks for nothing, or is warned of.
Main statement: `no_filter_dropped`.  The kind of a field and its value alone tell which of these it
is (`Fate`), and a build puts together what becomes of its fields, conjuncts and warnings in the
order of the declaration.
-/

set_option autoImplicit false

namespace CatalogSearch.Criteria

/-! ## Values by what a field makes of them -/

/-- Values by which a field of the kind asks for nothing. -/
inductive AsksNothing : IntentKind → Value → Prop where
  | null (kind : IntentKind) : AsksNothing kind .null
  | blank (kind : IntentKind) {s : String} (h : Text.isBlank s = true) : AsksNothing kind (.text s)
  | noItems {v : Value} (h : v.items? = some []) : AsksNothing .single v
  | noBounds : AsksNothing .range (.range none none)

/-- Values of a type that a field of the kind does not compare. -/
inductive Mistyped : IntentKind → Value → Prop where
  | notText {v : Value} (filled : v.isBlank = false) (h : v.text? = none) : Mistyped .term v
  | notRange {v : Value} (filled : v.isBlank = false) (h : ∀ lower upper, v ≠ .range lower upper) :
      Mistyped .range v

structure LikeOnNonText (i : FieldIntent) (v : Value) : Prop where
  kind : i.kind = .single
  operation : i.operation = .like
  filled : v.isBlank = false
  text : v.text? = none
  items : v.items? = none

theorem asksNothing_of_isBlank {v : Value} (h : v.isBlank = true) (kind : IntentKind) :
    AsksNothing kind v := by
  cases v with
  | null => exact .null kind
  | text s => exact .blank kind h
  | _ => cases h

/-- Beside null and blank text, only a collection without items and a range without bounds ask for
nothing. -/
theorem AsksNothing.of_filled {kind : IntentKind} {v : Value} (h : AsksNothing kind v)
    (filled : v.isBlank = false) :
    kind = .single ∧ v.items? = some [] ∨ kind = .range ∧ v = .range none none := by
  cases h with
  | null => cases filled
  | blank _ blank => exact absurd (blank.symm.trans filled) (by simp)
  | noItems items => exact Or.inl ⟨rfl, items⟩
  | noBounds => exact Or.inr ⟨rfl, rfl⟩

theorem AsksNothing.not_mistyped {kind : IntentKind} {v : Value} (h : AsksNothing kind v) :
    ¬ Mistyped kind v := by
  intro mistyped
  cases mistyped with
  | notText filled _ => rcases h.of_filled filled with ⟨hkind, _⟩ | ⟨hkind, _⟩ <;> cases hkind
  | notRange filled other =>
      rcases h.of_filled filled with ⟨hkind, _⟩ | ⟨_, hrange⟩
      · cases hkind
      · exact other none none hrange

theorem AsksNothing.not_likeOnNonText {i : FieldIntent} {v : Value} (h : AsksNothing i.kind v) :
    ¬ LikeOnNonText i v := by
  intro like
  rcases h.of_filled like.filled with ⟨_, items⟩ | ⟨hkind, _⟩
  · cases items.symm.trans like.items
  · cases hkind.symm.trans like.kind

theorem Mistyped.not_likeOnNonText {i : FieldIntent} {v : Value} (h : Mistyped i.kind v) :
    ¬ LikeOnNonText i v := by
  intro like
  rw [like.kind] at h
  cases h

/-! ## What becomes of a field -/

/-- A warning that names the field of the intent and the type of the value. -/
structure WarnsOf (i : FieldIntent) (v : Value) (record : LogRecord) : Prop where
  level : record.level = .warning
  names : ∃ before between after,
    record.message = before ++ i.name ++ between ++ v.kindName ++ after

theorem warnsOf_termIgnored (i : FieldIntent) (v : Value) :
    WarnsOf i v (.termIgnored i.name v.kindName) :=
  ⟨rfl, "term field=", " expects text, got ", "; field ignored", rfl⟩

theorem warnsOf_rangeIgnored (i : FieldIntent) (v : Value) :
    WarnsOf i v (.rangeIgnored i.name v.kindName) :=
  ⟨rfl, "range field=", " expects Range, got ", "; field ignored", rfl⟩

theorem warnsOf_likeOnNonText (i : FieldIntent) (v : Value) :
    WarnsOf i v (.likeOnNonText i.name v.kindName) :=
  ⟨rfl, "like on non-text field=", " type=", "; using equality", rfl⟩

/-- The ways in which a field that holds a value can end. -/
inductive Fate (i : FieldIntent) (v : Value) : CompiledField → Prop where
  | conjunct (p : Predicate) (asks : ¬ AsksNothing i.kind v) (typed : ¬ Mistyped i.kind v)
      (suits : ¬ LikeOnNonText i v) : Fate i v ⟨some p, []⟩
  | equality {path : String} {record : LogRecord} (like : LikeOnNonText i v)
      (paths : i.paths = [path]) (warns : WarnsOf i v record) :
      Fate i v ⟨some (.leaf path (.equal v)), [record]⟩
  | silent (nothing : AsksNothing i.kind v) : Fate i v ⟨none, []⟩
  | ignored {record : LogRecord} (mistyped : Mistyped i.kind v) (warns : WarnsOf i v record) :
      Fate i v ⟨none, [record]⟩

section Fates

variable {i : FieldIntent} {v : Value}

theorem outcome_of_isBlank (h : v.isBlank = true) : i.outcome v = ⟨none, []⟩ := by
  simp only [FieldIntent.outcome, comparison?_eq, FieldIntent.reports, h, if_true,
    Option.map_none]

theorem fate_term (kind : i.kind = .term) (filled : v.isBlank = false) :
    Fate i v (i.outcome v) := by
  have houtcome : i.outcome v =
      ⟨(v.text?.map (textComparison i.operation)).map i.predicate, i.termReports v⟩ := by
    simp [FieldIntent.outcome, comparison?_eq, FieldIntent.reports, filled, kind]
  rw [houtcome]
  rcases htext : v.text? with _ | s
  · have hreports : i.termReports v = [.termIgnored i.name v.kindName] := by
      simp [FieldIntent.termReports, htext]
    rw [hreports]
    exact .ignored (kind ▸ .notText filled htext) (warnsOf_termIgnored i v)
  · have hreports : i.termReports v = [] := by simp [FieldIntent.termReports, htext]
    rw [hreports]
    have asks : ¬ AsksNothing i.kind v := by
      intro nothing
      rcases nothing.of_filled filled with ⟨hkind, _⟩ | ⟨hkind, _⟩ <;>
        cases kind.symm.trans hkind
    have typed : ¬ Mistyped i.kind v := by
      rw [kind]
      rintro ⟨_, notText⟩
      cases notText.symm.trans htext
    have suits : ¬ LikeOnNonText i v := fun like => by cases kind.symm.trans like.kind
    exact .conjunct _ asks typed suits

theorem fate_range (kind : i.kind = .range) (filled : v.isBlank = false) :
    Fate i v (i.outcome v) := by
  have houtcome : i.outcome v = ⟨(rangeComparison? v).map i.predicate, i.rangeReports v⟩ := by
    simp [FieldIntent.outcome, comparison?_eq, FieldIntent.reports, filled, kind]
  rw [houtcome]
  have suits : ¬ LikeOnNonText i v := fun like => by cases kind.symm.trans like.kind
  -- A range gives a conjunct for the bounds it has, and every other value is ignored.
  by_cases hrange : ∃ lower upper, v = .range lower upper
  · obtain ⟨lower, upper, rfl⟩ := hrange
    have typed : ¬ Mistyped i.kind (.range lower upper) := by
      rw [kind]
      rintro (_ | ⟨_, other⟩)
      exact other lower upper rfl
    have asks (h : ¬ (lower = none ∧ upper = none)) :
        ¬ AsksNothing i.kind (.range lower upper) := by
      intro nothing
      rcases nothing.of_filled filled with ⟨hkind, _⟩ | ⟨_, hrange⟩
      · cases kind.symm.trans hkind
      · exact h (Value.range.inj hrange)
    rcases lower with _ | lower <;> rcases upper with _ | upper
    · exact .silent (kind ▸ .noBounds)
    all_goals exact .conjunct _ (asks (by simp)) typed suits
  · have other : ∀ lower upper, v ≠ .range lower upper := fun lower upper h =>
      hrange ⟨lower, upper, h⟩
    have hcomparison : rangeComparison? v = none := by
      cases v with
      | range lower upper => exact absurd rfl (other lower upper)
      | _ => rfl
    have hreports : i.rangeReports v = [.rangeIgnored i.name v.kindName] := by
      cases v with
      | range lower upper => exact absurd rfl (other lower upper)
      | _ => rfl
    rw [hcomparison, hreports]
    exact .ignored (kind ▸ .notRange filled other) (warnsOf_rangeIgnored i v)

theorem fate_single {path : String} (kind : i.kind = .single) (paths : i.paths = [path])
    (filled : v.isBlank = false) : Fate i v (i.outcome v) := by
  have houtcome : i.outcome v =
      ⟨(singleComparison? i.operation v).map (Predicate.leaf path), i.singleReports v⟩ := by
    simp [FieldIntent.outcome, comparison?_eq, FieldIntent.reports, filled, kind,
      predicate_of_single paths]
  rw [houtcome, singleComparison?_eq]
  have typed : ¬ Mistyped i.kind v := by
    rw [kind]
    intro mistyped
    cases mistyped
  have asks (h : v.items? ≠ some []) : ¬ AsksNothing i.kind v := by
    intro nothing
    rcases nothing.of_filled filled with ⟨_, items⟩ | ⟨hkind, _⟩
    · exact h items
    · cases kind.symm.trans hkind
  -- A collection is never warned of; the operation counts for single values only.
  rcases hitems : v.items? with _ | items
  · by_cases like : LikeOnNonText i v
    · have hreports : i.singleReports v = [.likeOnNonText i.name v.kindName] := by
        simp [FieldIntent.singleReports, like.operation, like.text, hitems]
      have hcomparison : scalarComparison i.operation v = .equal v := by
        cases v with
        | text s => cases like.text
        | _ => rfl
      rw [hreports, hcomparison]
      exact .equality like paths (warnsOf_likeOnNonText i v)
    · have hreports : i.singleReports v = [] := by
        rw [FieldIntent.singleReports, if_neg]
        rintro ⟨operation, text, _⟩
        exact like ⟨kind, operation, filled, text, hitems⟩
      rw [hreports]
      exact .conjunct _ (asks (by simp [hitems])) typed like
  · have suits : ¬ LikeOnNonText i v := fun like => by cases like.items.symm.trans hitems
    have hreports : i.singleReports v = [] := by simp [FieldIntent.singleReports, hitems]
    rw [hreports]
    rcases items with _ | ⟨first, rest⟩
    · exact .silent (kind ▸ .noItems hitems)
    · exact .conjunct _ (asks (by simp [hitems])) typed suits

theorem fate_outcome (formed : i.Formed) (v : Value) : Fate i v (i.outcome v) := by
  rcases hblank : v.isBlank
  · rcases hkind : i.kind
    · exact fate_term hkind hblank
    · exact fate_range hkind hblank
    · obtain ⟨path, paths⟩ := formed.single (by simp [hkind])
      exact fate_single hkind paths hblank
    · exact absurd hkind formed.kind
  · rw [outcome_of_isBlank hblank]
    exact .silent (asksNothing_of_isBlank hblank i.kind)

end Fates

structure FieldAccounted (i : FieldIntent) (v : Value) (c : CompiledField) : Prop where
  conjunct : c.predicate ≠ none ↔ ¬ AsksNothing i.kind v ∧ ¬ Mistyped i.kind v
  silent : c.predicate = none ∧ c.log = [] ↔ AsksNothing i.kind v
  ignored : c.predicate = none ∧ c.log ≠ [] ↔ Mistyped i.kind v
  warned : Mistyped i.kind v → ∃ record, c.log = [record] ∧ WarnsOf i v record
  replaced : c.predicate ≠ none ∧ c.log ≠ [] ↔ LikeOnNonText i v
  equality : LikeOnNonText i v → ∃ path record, i.paths = [path] ∧
    c.predicate = some (.leaf path (.equal v)) ∧ c.log = [record] ∧ WarnsOf i v record

/-- The ways to end exclude each other, and so do the values that lead to them. -/
theorem Fate.accounted {i : FieldIntent} {v : Value} {c : CompiledField} (h : Fate i v c) :
    FieldAccounted i v c := by
  cases h with
  | conjunct p asks typed suits =>
      constructor <;> simp [asks, typed, suits]
  | equality like paths warns =>
      have asks : ¬ AsksNothing i.kind v := fun nothing => nothing.not_likeOnNonText like
      have typed : ¬ Mistyped i.kind v := fun mistyped => mistyped.not_likeOnNonText like
      constructor <;> simp [asks, typed, like, paths, warns]
  | silent nothing =>
      have typed := nothing.not_mistyped
      have suits := nothing.not_likeOnNonText
      constructor <;> simp [nothing, typed, suits]
  | ignored mistyped warns =>
      have asks : ¬ AsksNothing i.kind v := fun nothing => nothing.not_mistyped mistyped
      have suits := mistyped.not_likeOnNonText
      constructor <;> simp [asks, mistyped, suits, warns]

theorem Fate.level {i : FieldIntent} {v : Value} {c : CompiledField} (h : Fate i v c) :
    ∀ record ∈ c.log, record.level = .warning := by
  cases h with
  | conjunct p asks typed suits => simp
  | equality like paths warns => simpa using warns.level
  | silent nothing => simp
  | ignored mistyped warns => simpa using warns.level

/-! ## Builds -/

def warnings (log : List LogRecord) : List LogRecord :=
  log.filter fun record => record.level = .warning

theorem warnings_append (log more : List LogRecord) :
    warnings (log ++ more) = warnings log ++ warnings more :=
  List.filter_append log more

theorem warnings_eq_nil {log : List LogRecord} (h : ∀ record ∈ log, record.level = .debug) :
    warnings log = [] := by
  rw [warnings, List.filter_eq_nil_iff]
  intro record hrecord
  simp [h record hrecord]

theorem warnings_reportsOf {fields : List (FieldIntent × Value)}
    (formed : ∀ f ∈ fields, f.1.Formed) :
    warnings (reportsOf fields) = reportsOf fields := by
  rw [warnings, List.filter_eq_self]
  intro record hrecord
  obtain ⟨f, hf, hrecord⟩ := List.mem_flatMap.mp hrecord
  simpa using (fate_outcome (formed f hf) f.2).level record hrecord

theorem compile_log {cache : IntentCache} {instance_ : Instance} {intents : List FieldIntent}
    {fields : List (FieldIntent × Value)}
    (hread : (cache.read instance_.type).result = .ok intents) (formed : ∀ i ∈ intents, i.Formed)
    (hfields : readFields? instance_ intents = .ok fields) :
    (compile cache instance_).log = (cache.read instance_.type).log ++ reportsOf fields := by
  simp only [compile, hread, compileFields_of_read hfields, conjunctsOf?_eq intents hfields formed,
    List.nil_append]

variable {σ ε Pos Attr Expr : Type}

theorem level_of_applyHints (e : QueryEngine σ ε Pos Attr Expr) : ∀ (hints : List String) (s : σ),
    ∀ record ∈ (applyHints e hints s).log, record.level = .debug := by
  intro hints
  induction hints with
  | nil => intro s; simp [applyHints]
  | cons name rest ih =>
      intro s
      simp only [applyHints]
      rcases e.fetch name s with ⟨x | _, s'⟩
      · exact List.forall_mem_cons.mpr ⟨rfl, ih s'⟩
      · exact ih s'

theorem build_warnings (e : QueryEngine σ ε Pos Attr Expr) {cache : IntentCache}
    {instance_ : Instance} {intents : List FieldIntent} {fields : List (FieldIntent × Value)}
    (hread : (cache.read instance_.type).result = .ok intents) (formed : ∀ i ∈ intents, i.Formed)
    (hfields : readFields? instance_ intents = .ok fields) (eager : Bool) (s : σ) :
    warnings (build e cache instance_ eager s).log = reportsOf fields := by
  have formed' : ∀ f ∈ fields, f.1.Formed := fun f hf =>
    formed f.1 (mem_of_readFields? intents hfields f hf)
  rw [build_of_compile_ok (compile_sound hread formed hfields)]
  simp only [compile_log hread formed hfields, buildCompiled, warnings_append,
    warnings_eq_nil (level_of_read cache instance_.type), warnings_reportsOf formed',
    warnings_eq_nil (level_of_applyHints e _ s), List.nil_append, List.append_nil]

/-- Of a made type, whatever its fields hold: what becomes of a field is told by its intent and its
value alone, and a build puts together what becomes of its fields, in the order of the
declaration. -/
theorem no_filter_dropped {cache : IntentCache} {key : Nat} {name : String}
    {specs : List FieldSpec} {d : Declaration} {intents : List FieldIntent}
    (hd : Declaration.ofFields? key name specs = .ok d) (faithful : cache.Faithful d)
    (extracts : d.intents? = .ok intents) :
    intents.map FieldIntent.name = specs.map FieldSpec.name ∧
    (∀ i ∈ intents, ∀ v, compileField i v = .ok (i.outcome v) ∧ FieldAccounted i v (i.outcome v)) ∧
    ∀ attributes (value : FieldIntent → Value),
      (∀ i ∈ intents, Instance.read? ⟨.declared d, attributes⟩ i.name = some (value i)) →
      (∃ criteria, (compile cache ⟨.declared d, attributes⟩).result = .ok criteria ∧
        criteria.conjuncts = intents.filterMap fun i => (i.outcome (value i)).predicate) ∧
      ∀ {σ ε Pos Attr Expr : Type} (e : QueryEngine σ ε Pos Attr Expr) (eager : Bool) (s : σ),
        warnings (build e cache ⟨.declared d, attributes⟩ eager s).log =
          intents.flatMap fun i => (i.outcome (value i)).log := by
  obtain ⟨hnames, hformed⟩ := formed_of_intents? hd extracts
  have formed : ∀ i ∈ intents, i.Formed := fun i hi => (hformed i hi).1
  refine ⟨hnames, ?_, ?_⟩
  · intro i hi v
    exact ⟨compileField_eq (formed i hi) v, (fate_outcome (formed i hi) v).accounted⟩
  · intro attributes value readable
    have hread := read_of_faithful faithful extracts
    have hfields := readFields?_eq_ok intents readable
    refine ⟨⟨_, compile_sound hread formed hfields, ?_⟩, ?_⟩
    · exact List.filterMap_map
    · intro σ ε Pos Attr Expr e eager s
      rw [build_warnings e hread formed hfields eager s]
      exact List.flatMap_map _ _ _

def mistypedRatings : List (String × Value) :=
  [("supplier", .int 3), ("rating", .text "high"), ("status", .null)]

/-- A number is compared where a text is to be searched for, and a text is ignored where a range is
asked for. -/
theorem no_filter_dropped_mistypedRatings :
    warnings (build (recordingEngine ⟨[], [], [], []⟩) .empty
        ⟨.declared ratedSupplies, mistypedRatings⟩ true []).log =
      [.likeOnNonText "supplier" "int", .rangeIgnored "rating" "str"] := by
  have made : Declaration.ofFields? 0 "RatedSupplies"
      [⟨"supplier", [.marker (.direct (.text "category.supplier.name") (some (.text "like")))],
          none, true⟩,
        ⟨"rating", [.marker (.range (.text "reviews.rating"))], none, true⟩,
        ⟨"status", [], none, true⟩] = .ok ratedSupplies := rfl
  have extracts : ratedSupplies.intents? = .ok (ratedFields.map Prod.fst) := rfl
  obtain ⟨_, _, built⟩ := no_filter_dropped made (faithful_empty _) extracts
  have readable : ∀ i ∈ ratedFields.map Prod.fst,
      Instance.read? ⟨.declared ratedSupplies, mistypedRatings⟩ i.name =
        some ((mistypedRatings.lookup i.name).getD .null) := by
    intro i hi
    simp only [ratedFields, List.map_cons, List.map_nil, List.mem_cons, List.not_mem_nil,
      or_false] at hi
    rcases hi with rfl | rfl | rfl <;> rfl
  obtain ⟨_, logged⟩ := built mistypedRatings _ readable
  rw [logged]
  decide

end CatalogSearch.Criteria
