import CatalogSearch.Proofs.Criteria.Hints

/-!
# Intents as they are extracted

The intents of a declared type are read from markers that were made, so that all that the compiler
takes for granted holds of them: there is a path, for a range or a direct match just one, and no
path is blank or has an empty segment.  Main statement: `extracted_intents_compile`.  Extraction
fails at the first field with several markers, and every other type gives intents of which every
value compiles.
-/

set_option autoImplicit false

namespace CatalogSearch.Criteria

/-! ## Extraction -/

/-- A name that is a path of one segment, as every identifier is. -/
structure PlainName (name : String) : Prop where
  filled : Text.isBlank name = false
  undotted : '.' ∉ name.toList

theorem PlainName.checked {name : String} (plain : PlainName name) : CheckedPath name where
  filled := plain.filled
  clean := by
    rw [CleanPath, segments_of_no_dot plain.undotted, List.mem_singleton]
    rintro rfl
    cases plain.filled

def Field.hasSeveral (f : Field) : Bool := 1 < f.markers.length

section Fields

variable {f : Field}

theorem Field.intent?_of_unmarked (h : f.markers = []) :
    f.intent? = .ok ⟨f.name, .single, [f.name], .equal⟩ := by
  simp only [Field.intent?, h]

theorem Field.intent?_of_marked {m : Marker} (h : f.markers = [m]) :
    f.intent? = .ok (m.intent f.name) := by
  simp only [Field.intent?, h]

theorem Field.intent?_of_several (h : f.hasSeveral = true) :
    f.intent? = .error (.severalIntents f.name (f.markers.map Marker.kindName)) := by
  rcases hmarkers : f.markers with _ | ⟨m, _ | ⟨other, others⟩⟩
  · simp [Field.hasSeveral, hmarkers] at h
  · simp [Field.hasSeveral, hmarkers] at h
  · simp only [Field.intent?, hmarkers]

theorem Field.markers_of_not_several (h : f.hasSeveral = false) :
    f.markers = [] ∨ ∃ m, f.markers = [m] := by
  rcases hmarkers : f.markers with _ | ⟨m, _ | ⟨other, others⟩⟩
  · exact Or.inl rfl
  · exact Or.inr ⟨m, rfl⟩
  · simp [Field.hasSeveral, hmarkers] at h

theorem Field.exists_intent? (h : f.hasSeveral = false) : ∃ i, f.intent? = .ok i := by
  rcases Field.markers_of_not_several h with hmarkers | ⟨m, hmarkers⟩
  · exact ⟨_, Field.intent?_of_unmarked hmarkers⟩
  · exact ⟨_, Field.intent?_of_marked hmarkers⟩

theorem Field.mem_markers {m : Marker} : m ∈ f.markers ↔ Annotation.marker m ∈ f.annotations := by
  simp only [Field.markers, List.mem_filterMap]
  constructor
  · rintro ⟨attached, hattached, heq⟩
    cases attached with
    | marker made =>
        obtain rfl := Option.some.inj heq
        exact hattached
    | other => cases heq
  · intro h
    exact ⟨_, h, rfl⟩

/-- The intent of a field that has one marker at most: that of the marker, or of the field's name.
Other annotations do not count. -/
structure IntentOf (f : Field) (i : FieldIntent) : Prop where
  name : i.name = f.name
  unmarked : (∀ m, Annotation.marker m ∉ f.annotations) → i = ⟨f.name, .single, [f.name], .equal⟩
  marked : ∀ m, Annotation.marker m ∈ f.annotations → i = m.intent f.name ∧ i.paths = m.paths
  formed : i.Formed
  checked : ∀ path ∈ i.paths, CheckedPath path

theorem Field.Made.intentOf (made : f.Made) (plain : PlainName f.name) {i : FieldIntent}
    (h : f.intent? = .ok i) : IntentOf f i := by
  rcases hseveral : f.hasSeveral
  · have hname := Field.intent?_name h
    have hformed := (made.formed h).1
    rcases Field.markers_of_not_several hseveral with hmarkers | ⟨m, hmarkers⟩
    · obtain rfl := Except.ok.inj (h.symm.trans (Field.intent?_of_unmarked hmarkers))
      have unmarked : ∀ m, Annotation.marker m ∉ f.annotations := by
        intro m hm
        simpa [hmarkers] using Field.mem_markers.mpr hm
      exact ⟨hname, fun _ => rfl, fun m hm => absurd hm (unmarked m), hformed,
        by simpa using plain.checked⟩
    · obtain rfl := Except.ok.inj (h.symm.trans (Field.intent?_of_marked hmarkers))
      have hm : Annotation.marker m ∈ f.annotations := Field.mem_markers.mp (by simp [hmarkers])
      obtain ⟨spec, hspec⟩ := made m hm
      refine ⟨hname, fun unmarked => absurd hm (unmarked m), ?_, hformed, ?_⟩
      · intro other hother
        obtain rfl : other = m := by simpa [hmarkers] using Field.mem_markers.mpr hother
        exact ⟨rfl, other.paths_intent f.name⟩
      · rw [m.paths_intent]
        exact (MarkerSpec.checked hspec).2
  · cases h.symm.trans (Field.intent?_of_several hseveral)

end Fields

theorem intentsOf?_of_several : ∀ (fields : List Field) {f : Field},
    fields.find? Field.hasSeveral = some f →
      intentsOf? fields = .error (.severalIntents f.name (f.markers.map Marker.kindName)) := by
  intro fields
  induction fields with
  | nil => intro f h; cases h
  | cons g rest ih =>
      intro f h
      rcases hseveral : g.hasSeveral
      · rw [List.find?_cons_of_neg (by simp [hseveral])] at h
        obtain ⟨i, hi⟩ := Field.exists_intent? hseveral
        rw [intentsOf?, hi, ih h]
        rfl
      · rw [List.find?_cons_of_pos hseveral] at h
        obtain rfl := Option.some.inj h
        rw [intentsOf?, Field.intent?_of_several hseveral]
        rfl

theorem exists_intentsOf? : ∀ fields : List Field, fields.find? Field.hasSeveral = none →
    ∃ intents, intentsOf? fields = .ok intents := by
  intro fields h
  induction fields with
  | nil => exact ⟨[], rfl⟩
  | cons f rest ih =>
      obtain ⟨hf, hrest⟩ := List.forall_mem_cons.mp (List.find?_eq_none.mp h)
      obtain ⟨others, hothers⟩ := ih (List.find?_eq_none.mpr hrest)
      obtain ⟨i, hi⟩ := Field.exists_intent? (by simpa using hf)
      refine ⟨i :: others, ?_⟩
      rw [intentsOf?, hi, hothers]
      rfl

/-! ## Compiling what was extracted -/

def Filled : Predicate → Prop
  | .leaf _ c => c ≠ .oneOf []
  | .anyOf operands => operands ≠ []
  | _ => True

/-- A predicate that compares the attributes at the paths of an intent, each by one leaf. -/
structure PredicateOf (i : FieldIntent) (p : Predicate) : Prop where
  paths : p.paths = i.paths
  term : i.kind = .term → ∃ c, p = .anyOf (i.paths.map fun path => .leaf path c)
  single : i.kind ≠ .term → ∃ path c, p = .leaf path c
  filled : p.Every Filled

theorem predicateOf {i : FieldIntent} (formed : i.Formed) {v : Value} {c : Comparison}
    (h : i.comparison? v = some c) : PredicateOf i (i.predicate c) where
  paths := paths_predicate formed c
  term hterm := ⟨c, by rw [predicate_of_term hterm]⟩
  single hterm := by
    obtain ⟨path, hpaths⟩ := formed.single hterm
    exact ⟨path, c, by rw [predicate_of_single hpaths hterm]⟩
  filled := by
    refine every_predicate formed (fun path _ => ?_) (fun operands hne => hne)
    rintro rfl
    exact comparison?_ne_oneOf_nil i v h

theorem compiles_of_formed {i : FieldIntent} (formed : i.Formed) (v : Value) :
    ∃ compiled, compileField i v = .ok compiled ∧
      ∀ p, compiled.predicate = some p → PredicateOf i p := by
  refine ⟨_, compileField_eq formed v, ?_⟩
  intro p hp
  obtain ⟨c, hc, rfl⟩ := Option.map_eq_some_iff.mp hp
  exact predicateOf formed hc

/-- Of a made type whose fields have plain names: extraction reports the first field with several
markers, and without one gives the intents of the fields, of which every value compiles. -/
theorem extracted_intents_compile {cache : IntentCache} {key : Nat} {name : String}
    {specs : List FieldSpec} {d : Declaration}
    (hd : Declaration.ofFields? key name specs = .ok d) (faithful : cache.Faithful d)
    (resolvable : ∀ spec ∈ specs, spec.resolvable = true)
    (plain : ∀ spec ∈ specs, PlainName spec.name) :
    (∀ f, d.fields.find? Field.hasSeveral = some f →
      (cache.read (.declared d)).result =
        .error (.severalIntents f.name (f.markers.map Marker.kindName))) ∧
    (d.fields.find? Field.hasSeveral = none →
      ∃ intents, (cache.read (.declared d)).result = .ok intents ∧
        List.Forall₂ IntentOf d.fields intents ∧
        ∀ i ∈ intents, ∀ v, ∃ compiled, compileField i v = .ok compiled ∧
          ∀ p, compiled.predicate = some p → PredicateOf i p) := by
  obtain ⟨fields, hfields, hd⟩ := except_bind_eq_ok.mp hd
  obtain rfl := Except.ok.inj hd
  obtain ⟨hnames, hmade⟩ := made_of_fieldsOf? specs hfields
  have readable : specs.all (·.resolvable) = true := by simpa using resolvable
  rw [result_read faithful]
  simp only [Declaration.intents?, readable, if_true]
  refine ⟨fun f => intentsOf?_of_several fields, ?_⟩
  intro single
  obtain ⟨intents, hintents⟩ := exists_intentsOf? fields single
  -- Fields take their names from the declaration, so these are plain as well.
  have made : ∀ f ∈ fields, f.Made ∧ PlainName f.name := by
    intro f hf
    have hname : f.name ∈ specs.map FieldSpec.name := hnames ▸ List.mem_map_of_mem hf
    obtain ⟨spec, hspec, hname⟩ := List.mem_map.mp hname
    exact ⟨hmade f hf, hname ▸ plain spec hspec⟩
  refine ⟨intents, hintents, ?_, ?_⟩
  · have each := (List.forall₂_and_left fields intents).mpr
      ⟨made, (intentsOf?_eq_ok fields).mp hintents⟩
    exact each.imp fun f i h => h.1.1.intentOf h.1.2 h.2
  · intro i hi v
    obtain ⟨f, hf, hfi⟩ := (mem_of_intentsOf? hintents).2 i hi
    exact compiles_of_formed ((made f hf).1.formed hfi).1 v

def tunedSpecs : List FieldSpec :=
  [⟨"term", [.other, .marker (.term [.text "name", .text "category.name"] none)], none, true⟩,
    ⟨"price", [.marker (.range (.text "price")), .marker (.direct (.text "cost") none)], none, true⟩]

def tuned (fields : List Field) : Declaration := ⟨0, "Tuned", fields, true⟩

def tunedTerm : Field := ⟨"term", [.other, .marker (.term ["name", "category.name"] .like)], none⟩

def tunedPrice : Field := ⟨"price", [.marker (.range "price"), .marker (.direct "cost" .equal)], none⟩

theorem extracted_intents_compile_tuned :
    (IntentCache.empty.read (.declared (tuned [tunedTerm, tunedPrice]))).result =
        .error (.severalIntents "price" ["QueryRange", "QueryPath"]) ∧
      ∃ intents, (IntentCache.empty.read (.declared (tuned [tunedTerm]))).result = .ok intents ∧
        List.Forall₂ IntentOf [tunedTerm] intents := by
  have plain : ∀ spec ∈ tunedSpecs, PlainName spec.name := by
    intro spec hspec
    rcases List.mem_pair.mp hspec with rfl | rfl
    · exact ⟨by decide, by decide⟩
    · exact ⟨by decide, by decide⟩
  have made : Declaration.ofFields? 0 "Tuned" tunedSpecs = .ok (tuned [tunedTerm, tunedPrice]) := rfl
  have made' : Declaration.ofFields? 0 "Tuned" (tunedSpecs.take 1) = .ok (tuned [tunedTerm]) := rfl
  obtain ⟨several, _⟩ :=
    extracted_intents_compile made (faithful_empty _) (by decide) plain
  obtain ⟨_, extracts⟩ := extracted_intents_compile made' (faithful_empty _) (by decide)
    fun spec hspec => plain spec (List.mem_of_mem_take hspec)
  obtain ⟨intents, hread, each, _⟩ := extracts rfl
  exact ⟨several tunedPrice rfl, intents, hread, each⟩

end CatalogSearch.Criteria
