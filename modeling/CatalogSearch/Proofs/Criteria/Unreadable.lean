import CatalogSearch.Proofs.Criteria.Hints
import CatalogSearch.Proofs.Criteria.Independence

/-!
# Fields that cannot be read

All fields are read for the hints before one of them is compiled, and the engine is asked for nothing
before both is done.  Main statement: `unreadable_field_stops_build`.  A build stops at the first
field that cannot be read, whatever the fields before it hold, and leaves no call and no warning
behind; where all fields can be read, no build stops for that reason.
-/

set_option autoImplicit false

namespace CatalogSearch.Criteria

def Instance.firstUnread? (i : Instance) (fields : List String) : Option String :=
  fields.find? fun field => (i.read? field).isNone

section Reading

variable {i : Instance}

theorem firstUnread?_cons_of_unread {field : String} (h : i.read? field = none)
    (rest : List String) : i.firstUnread? (field :: rest) = some field := by
  simp [Instance.firstUnread?, h]

theorem firstUnread?_cons_of_read {field : String} {v : Value} (h : i.read? field = some v)
    (rest : List String) : i.firstUnread? (field :: rest) = i.firstUnread? rest := by
  simp [Instance.firstUnread?, h]

theorem readFields?_of_firstUnread? : ∀ (intents : List FieldIntent) {field : String},
    i.firstUnread? (intents.map FieldIntent.name) = some field →
      readFields? i intents = .error (.unreadable field) := by
  intro intents
  induction intents with
  | nil => intro field h; cases h
  | cons intent rest ih =>
      intro field h
      rw [List.map_cons] at h
      rcases hread : i.read? intent.name with _ | v
      · rw [firstUnread?_cons_of_unread hread] at h
        rw [readFields?, hread, Option.some.inj h]
      · rw [firstUnread?_cons_of_read hread] at h
        rw [readFields?, hread, ih h]
        rfl

theorem exists_readFields? : ∀ intents : List FieldIntent,
    i.firstUnread? (intents.map FieldIntent.name) = none →
      ∃ fields, readFields? i intents = .ok fields := by
  intro intents
  induction intents with
  | nil => intro _; exact ⟨[], rfl⟩
  | cons intent rest ih =>
      intro h
      rw [List.map_cons] at h
      rcases hread : i.read? intent.name with _ | v
      · rw [firstUnread?_cons_of_unread hread] at h
        cases h
      · rw [firstUnread?_cons_of_read hread] at h
        obtain ⟨fields, hfields⟩ := ih h
        refine ⟨(intent, v) :: fields, ?_⟩
        rw [readFields?, hread, hfields]
        rfl

theorem conjunctsOf?_ne_unreadable (field : String) : ∀ (intents : List FieldIntent)
    {fields : List (FieldIntent × Value)}, readFields? i intents = .ok fields →
      ∀ log : List LogRecord, (conjunctsOf? i intents log).1 ≠ .error (.unreadable field) := by
  intro intents
  induction intents with
  | nil =>
      intro fields _ log h
      cases h
  | cons intent rest ih =>
      intro fields h log
      obtain ⟨v, others, hread, hothers, _⟩ := readFields?_cons_eq_ok.mp h
      rcases hcompiled : compileField intent v with x | compiled
      · rw [conjunctsOf?_of_uncompiled hread hcompiled]
        simp
      · have hrest := ih hothers (log ++ compiled.log)
        rw [conjunctsOf?_of_compiled hread hcompiled]
        intro h
        rcases hrun : (conjunctsOf? i rest (log ++ compiled.log)).1 with x | ps
        · rw [hrun] at h hrest
          exact hrest (congrArg Except.error (Except.error.inj h))
        · rw [hrun] at h
          cases h

end Reading

/-! ## Builds -/

section Stops

variable {σ ε Pos Attr Expr : Type}

/-- A build that ends at a field that cannot be read, with no call made of the engine and nothing
logged but, maybe, that the intents of the type were extracted. -/
structure StopsUnread (e : QueryEngine σ ε Pos Attr Expr) (cache : IntentCache) (i : Instance)
    (eager : Bool) (s : σ) (field : String) : Prop where
  error : (build e cache i eager s).result = .error (.criteria (.unreadable field))
  engine : (build e cache i eager s).engine = s
  calls : e.callsOf cache i eager s = []
  log : (build e cache i eager s).log = (cache.read i.type).log
  noWarning : ∀ record ∈ (build e cache i eager s).log, record.level ≠ .warning

variable {cache : IntentCache} {i : Instance} {intents : List FieldIntent}

theorem compile_of_firstUnread? (hread : (cache.read i.type).result = .ok intents) {field : String}
    (unread : i.firstUnread? (intents.map FieldIntent.name) = some field) :
    compile cache i =
      ⟨.error (.unreadable field), (cache.read i.type).cache, (cache.read i.type).log⟩ := by
  have hfields := readFields?_of_firstUnread? intents unread
  simp only [compile, hread, compileFields_of_unread hfields, List.append_nil]

theorem compile_ne_unreadable (hread : (cache.read i.type).result = .ok intents)
    (readable : i.firstUnread? (intents.map FieldIntent.name) = none) (field : String) :
    (compile cache i).result ≠ .error (.unreadable field) := by
  obtain ⟨fields, hfields⟩ := exists_readFields? intents readable
  have hconjuncts := conjunctsOf?_ne_unreadable field intents hfields []
  simp only [compile, hread, compileFields_of_read hfields]
  rcases hrun : (conjunctsOf? i intents []).1 with x | ps
  · intro h
    exact hconjuncts (hrun.trans (congrArg Except.error (Except.error.inj h)))
  · intro h
    cases h

theorem stopsUnread (e : QueryEngine σ ε Pos Attr Expr)
    (hread : (cache.read i.type).result = .ok intents) {field : String}
    (unread : i.firstUnread? (intents.map FieldIntent.name) = some field) (eager : Bool) (s : σ) :
    StopsUnread e cache i eager s field := by
  have hcompile := compile_of_firstUnread? hread unread
  have herror : (compile cache i).result = .error (.unreadable field) := by rw [hcompile]
  have hlog : (build e cache i eager s).log = (cache.read i.type).log := by
    rw [build_of_compile_error herror, hcompile]
  refine ⟨?_, ?_, ?_, hlog, ?_⟩
  · rw [build_of_compile_error herror]
  · rw [build_of_compile_error herror]
  · rw [QueryEngine.callsOf, build_of_compile_error herror]
  · intro record hrecord
    rw [hlog] at hrecord
    rw [level_of_read cache i.type record hrecord]
    simp

theorem build_ne_unreadable (e : QueryEngine σ ε Pos Attr Expr)
    (hread : (cache.read i.type).result = .ok intents)
    (readable : i.firstUnread? (intents.map FieldIntent.name) = none) (field : String)
    (eager : Bool) (s : σ) :
    (build e cache i eager s).result ≠ .error (.criteria (.unreadable field)) := by
  have hcompile := compile_ne_unreadable hread readable field
  intro h
  rcases hresult : (compile cache i).result with x | criteria
  · rw [build_of_compile_error hresult] at h
    obtain rfl := BuildError.criteria.inj (Except.error.inj h)
    exact hcompile hresult
  · -- The criteria compiled, so that only translating them could fail.
    rw [build_of_compile_ok hresult] at h
    rcases hbuilt : (buildCompiled e eager criteria s).1.1 with x | expr
    · rw [hbuilt] at h
      cases Except.error.inj h
    · rw [hbuilt] at h
      cases h

end Stops

/-- A build of a type whose intents extract stops at the first field, in the order of the
declaration, that cannot be read, and at none if all can. -/
theorem unreadable_field_stops_build {cache : IntentCache} {d : Declaration}
    {intents : List FieldIntent} (faithful : cache.Faithful d) (extracts : d.intents? = .ok intents)
    (attributes : List (String × Value)) {σ ε Pos Attr Expr : Type}
    (e : QueryEngine σ ε Pos Attr Expr) (eager : Bool) (s : σ) :
    (∀ field, Instance.firstUnread? ⟨.declared d, attributes⟩ (d.fields.map Field.name) = some field →
      StopsUnread e cache ⟨.declared d, attributes⟩ eager s field) ∧
    (Instance.firstUnread? ⟨.declared d, attributes⟩ (d.fields.map Field.name) = none →
      ∀ field, (build e cache ⟨.declared d, attributes⟩ eager s).result ≠
        .error (.criteria (.unreadable field))) := by
  have hread := read_of_faithful faithful extracts
  obtain ⟨hnames, _⟩ := mem_of_intentsOf? (Declaration.intents?_eq_ok.mp extracts).2
  rw [← hnames]
  exact ⟨fun field unread => stopsUnread e hread unread eager s,
    fun readable field => build_ne_unreadable e hread readable field eager s⟩

/-- The first field holds a value of the wrong type, and the last two hold none. -/
theorem unreadable_field_stops_build_ratedSupplies :
    StopsUnread (recordingEngine ⟨[], [], [], []⟩) .empty
      ⟨.declared ratedSupplies, [("supplier", .int 3)]⟩ true [] "rating" := by
  have extracts : ratedSupplies.intents? = .ok (ratedFields.map Prod.fst) := rfl
  obtain ⟨stops, _⟩ := unreadable_field_stops_build (faithful_empty ratedSupplies) extracts
    [("supplier", .int 3)] (recordingEngine ⟨[], [], [], []⟩) true []
  exact stops "rating" (by decide)

end CatalogSearch.Criteria
