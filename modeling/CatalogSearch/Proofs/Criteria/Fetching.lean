import CatalogSearch.Proofs.Criteria.Hints
import CatalogSearch.Proofs.Criteria.Independence

/-!
# What fetching eagerly changes

An eager build makes one fetch for each hint, in their order, whatever became of the fetches before;
if one succeeded, it then asks for distinct results; and then it goes on as the plain build does.
Main statement: `failed_fetches_leave_filtering`, for every engine whose answers to the calls that
translate predicates do not depend on fetches.
-/

set_option autoImplicit false

namespace CatalogSearch.Criteria

variable {σ ε Pos Attr Expr : Type}

def QueryEngine.skippedBy (e : QueryEngine σ ε Pos Attr Expr)
    (calls : List (EngineCall ε Pos Attr Expr)) : List LogRecord :=
  calls.filterMap fun
    | .fetch name (.error x) => some (.fetchSkipped name (e.describe x))
    | _ => none

def SomeFetched (calls : List (EngineCall ε Pos Attr Expr)) : Prop :=
  ∃ name, EngineCall.fetch name (.ok ()) ∈ calls

/-! ## The fetches of the hints -/

/-- The run made the given fetches, one for each hint, and nothing else. -/
structure FetchesHints (e : QueryEngine σ ε Pos Attr Expr) (hints : List String) (s : σ)
    (before fetches : List (EngineCall ε Pos Attr Expr))
    (run : FetchRun (σ × List (EngineCall ε Pos Attr Expr))) : Prop where
  asks : fetches.map EngineCall.ask = hints.map EngineAsk.fetch
  engine : run.engine = (e.after s (fetches.map EngineCall.ask), before ++ fetches)
  log : run.log = e.skippedBy fetches
  applied : run.applied = true ↔ SomeFetched fetches

section OneFetch

variable {e : QueryEngine σ ε Pos Attr Expr} {name : String} {s s' : σ} {answer : Except ε Unit}

theorem watched_fetch (hfetch : e.fetch name s = (answer, s'))
    (before : List (EngineCall ε Pos Attr Expr)) :
    e.watched.fetch name (s, before) = (answer, (s', before ++ [.fetch name answer])) := by
  simp [QueryEngine.watched, watching, hfetch]

theorem after_fetch (hfetch : e.fetch name s = (answer, s'))
    (later : List (EngineCall ε Pos Attr Expr)) :
    e.after s ((EngineCall.fetch name answer :: later).map EngineCall.ask) =
      e.after s' (later.map EngineCall.ask) := by
  simp [QueryEngine.after, EngineCall.ask, QueryEngine.respond, hfetch]

end OneFetch

theorem applyHints_fetches (e : QueryEngine σ ε Pos Attr Expr) :
    ∀ (hints : List String) (s : σ) (before : List (EngineCall ε Pos Attr Expr)),
      ∃ fetches, FetchesHints e hints s before fetches (applyHints e.watched hints (s, before)) := by
  intro hints
  induction hints with
  | nil =>
      intro s before
      refine ⟨[], rfl, ?_, rfl, ?_⟩
      · simp [applyHints, QueryEngine.after]
      · simp [applyHints, SomeFetched]
  | cons name rest ih =>
      intro s before
      rcases hfetch : e.fetch name s with ⟨x | _, s'⟩
      · obtain ⟨fetches, asks, engine, log, applied⟩ := ih s' (before ++ [.fetch name (.error x)])
        simp only [applyHints, watched_fetch hfetch]
        refine ⟨.fetch name (.error x) :: fetches, ?_, ?_, ?_, ?_⟩
        · rw [List.map_cons, asks]
          rfl
        · rw [engine, after_fetch hfetch, List.append_assoc, List.singleton_append]
        · rw [log]
          rfl
        · simpa [SomeFetched] using applied
      · obtain ⟨fetches, asks, engine, log, _⟩ := ih s' (before ++ [.fetch name (.ok ())])
        simp only [applyHints, watched_fetch hfetch]
        refine ⟨.fetch name (.ok ()) :: fetches, ?_, ?_, ?_, ?_⟩
        · rw [List.map_cons, asks]
          rfl
        · rw [engine, after_fetch hfetch, List.append_assoc, List.singleton_append]
        · rw [log]
          rfl
        · -- One fetch that succeeded is enough, whatever becomes of the others.
          have hfirst : SomeFetched (.fetch name (.ok ()) :: fetches) := ⟨name, by simp⟩
          simp [hfirst]

/-! ## The mark for distinct results -/

/-- The run asked for distinct results if it had to, and failed if that failed. -/
inductive MarksDistinct (e : QueryEngine σ ε Pos Attr Expr) (s : σ)
    (before : List (EngineCall ε Pos Attr Expr)) :
    Bool → List (EngineCall ε Pos Attr Expr) →
      Except (ExpressionError ε) Unit × (σ × List (EngineCall ε Pos Attr Expr)) → Prop
  | unasked : MarksDistinct e s before false [] (.ok (), (s, before))
  | marked : MarksDistinct e s before true [.distinct (.ok ())]
      (.ok (), (e.after s [.distinct], before ++ [.distinct (.ok ())]))
  | failed (x : ε) : MarksDistinct e s before true [.distinct (.error x)]
      (.error (.engine x), (e.after s [.distinct], before ++ [.distinct (.error x)]))

theorem exists_marksDistinct (e : QueryEngine σ ε Pos Attr Expr) (applied : Bool) (s : σ)
    (before : List (EngineCall ε Pos Attr Expr)) :
    ∃ marks, MarksDistinct e s before applied marks (markDistinct e.watched applied (s, before)) := by
  cases applied with
  | false => exact ⟨[], .unasked⟩
  | true =>
      have hafter : e.after s [.distinct] = (e.distinct s).2 := rfl
      rcases hdistinct : e.distinct s with ⟨x | _, s'⟩
      · have hmark : markDistinct e.watched true (s, before) =
            (.error (.engine x), (e.after s [.distinct], before ++ [.distinct (.error x)])) := by
          simp [markDistinct, Call.mapError, QueryEngine.watched, watching, hafter, hdistinct]
        rw [hmark]
        exact ⟨_, .failed x⟩
      · have hmark : markDistinct e.watched true (s, before) =
            (.ok (), (e.after s [.distinct], before ++ [.distinct (.ok ())])) := by
          simp [markDistinct, Call.mapError, QueryEngine.watched, watching, hafter, hdistinct]
        rw [hmark]
        exact ⟨_, .marked⟩

/-! ## Translating after loads -/

theorem exists_loads (e : QueryEngine σ ε Pos Attr Expr) (criteria : CompiledCriteria) (s : σ) :
    ∃ fetches applied marks run,
      fetches.map EngineCall.ask = criteria.hints.map EngineAsk.fetch ∧
      (applied = true ↔ SomeFetched fetches) ∧
      MarksDistinct e (e.after s (fetches.map EngineCall.ask)) fetches applied marks run ∧
      buildCompiled e.watched true criteria (s, []) =
        (match run with
          | (.ok _, a) => toExpression e.watched criteria.predicate a
          | (.error x, a) => (.error x, a), e.skippedBy fetches) := by
  obtain ⟨fetches, asks, engine, log, applied⟩ := applyHints_fetches e criteria.hints s []
  rw [List.nil_append] at engine
  obtain ⟨marks, hmarks⟩ := exists_marksDistinct e
    (applyHints e.watched criteria.hints (s, [])).applied (e.after s (fetches.map EngineCall.ask))
    fetches
  refine ⟨fetches, _, marks, _, asks, applied, hmarks, ?_⟩
  simp only [buildCompiled, if_true, engine, log, Call.bind]
  rcases markDistinct e.watched (applyHints e.watched criteria.hints (s, [])).applied
    (e.after s (fetches.map EngineCall.ask), fetches) with ⟨x | _, a⟩
  · rfl
  · rfl

theorem filters_of_fetches {hints : List String} {fetches : List (EngineCall ε Pos Attr Expr)}
    (asks : fetches.map EngineCall.ask = hints.map EngineAsk.fetch) :
    ∀ call ∈ fetches, call.filters = false := by
  intro call hcall
  have hask : call.ask ∈ hints.map EngineAsk.fetch := asks ▸ List.mem_map_of_mem hcall
  obtain ⟨name, _, hname⟩ := List.mem_map.mp hask
  rw [EngineCall.filters, ← hname]
  rfl

theorem plain_watched (e : QueryEngine σ ε Pos Attr Expr) (c : CompiledCriteria)
    (a : σ × List (EngineCall ε Pos Attr Expr)) :
    buildCompiled e.watched false c a = (toExpression e.watched c.predicate a, []) := rfl

section Loads

variable {e : QueryEngine σ ε Pos Attr Expr} {s : σ}
  (heeds : e.Heeds s EngineAsk.filters EngineAsk.filters)
include heeds

theorem toExpression_after_loads {loads : List (EngineCall ε Pos Attr Expr)}
    (hloads : ∀ call ∈ loads, call.filters = false) (p : Predicate) :
    ∃ result s₁ s₂ calls,
      toExpression e.watched p (e.after s (loads.map EngineCall.ask), loads) =
        (result, (s₁, loads ++ calls)) ∧
      toExpression e.watched p (s, []) = (result, (s₂, calls)) ∧
      ∀ call ∈ calls, call.filters = true := by
  have same : (loads.map EngineCall.ask).filter EngineAsk.filters =
      List.filter EngineAsk.filters [] := by
    rw [List.filter_nil, List.filter_eq_nil_iff]
    intro ask hask
    obtain ⟨call, hcall, rfl⟩ := List.mem_map.mp hask
    exact Bool.eq_false_iff.mp (hloads call hcall)
  obtain ⟨hresult, calls, ⟨hleft, hright⟩, hcalls⟩ :=
    toExpression_heeding heeds same (fun _ h => h) loads [] p
  exact ⟨_, _, _, calls, Prod.ext rfl hleft, Prod.ext hresult.symm hright, hcalls⟩

variable {cache : IntentCache} {i : Instance} {criteria : CompiledCriteria}
  (hcriteria : (compile cache i).result = .ok criteria)
include hcriteria

theorem build_after_loads {loads : List (EngineCall ε Pos Attr Expr)} {log : List LogRecord}
    (hloads : ∀ call ∈ loads, call.filters = false)
    (hbuild : buildCompiled e.watched true criteria (s, []) =
      (toExpression e.watched criteria.predicate (e.after s (loads.map EngineCall.ask), loads),
        log)) :
    (build e cache i true s).result = (build e cache i false s).result ∧
      e.callsOf cache i true s = loads ++ e.callsOf cache i false s := by
  obtain ⟨result, s₁, s₂, calls, hleft, hright, _⟩ :=
    toExpression_after_loads heeds hloads criteria.predicate
  rw [hleft] at hbuild
  simp only [build_watched e, QueryEngine.callsOf, build_of_compile_ok hcriteria, hbuild,
    plain_watched, hright]
  exact ⟨trivial, trivial⟩

end Loads

/-! ## Eager and plain builds -/

/-- The eager build makes the calls of the plain one after fetches, and after the mark for distinct
results that they bring about; a mark that fails ends it. -/
structure FetchesFirst (e : QueryEngine σ ε Pos Attr Expr) (s : σ) (cache : IntentCache)
    (i : Instance) (hints : List String)
    (fetches marks : List (EngineCall ε Pos Attr Expr)) : Prop where
  ascending : hints.Pairwise (· < ·)
  asks : fetches.map EngineCall.ask = hints.map EngineAsk.fetch
  log : (build e cache i true s).log = (build e cache i false s).log ++ e.skippedBy fetches
  marked : SomeFetched fetches → ∃ answer, marks = [.distinct answer]
  unmarked : ¬ SomeFetched fetches → marks = []
  goesOn : Unbroken marks →
    (build e cache i true s).result = (build e cache i false s).result ∧
      e.callsOf cache i true s = fetches ++ marks ++ e.callsOf cache i false s
  stops : ∀ x, EngineCall.distinct (.error x) ∈ marks →
    (build e cache i true s).result = .error (.expression (.engine x)) ∧
      e.callsOf cache i true s = fetches ++ marks

theorem exists_fetchesFirst {e : QueryEngine σ ε Pos Attr Expr} {s : σ}
    (heeds : e.Heeds s EngineAsk.filters EngineAsk.filters) {cache : IntentCache} {i : Instance}
    {criteria : CompiledCriteria} (hcriteria : (compile cache i).result = .ok criteria) :
    ∃ fetches marks, FetchesFirst e s cache i criteria.hints fetches marks := by
  obtain ⟨fetches, applied, marks, run, asks, happlied, hmarks, hbuild⟩ := exists_loads e criteria s
  have ascending := hints_pairwise hcriteria
  have hfetches := filters_of_fetches asks
  have hlog : (build e cache i true s).log =
      (build e cache i false s).log ++ e.skippedBy fetches := by
    simp only [build_watched e, build_of_compile_ok hcriteria, plain_watched, hbuild,
      List.append_nil]
  cases hmarks with
  | unasked =>
      have hnone : ¬ SomeFetched fetches := by simpa using happlied
      refine ⟨fetches, [], ascending, asks, hlog, fun h => absurd h hnone, fun _ => rfl, ?_, ?_⟩
      · intro _
        rw [List.append_nil]
        exact build_after_loads heeds hcriteria hfetches hbuild
      · intro x hx
        simp at hx
  | marked =>
      have hsome : SomeFetched fetches := happlied.mp rfl
      refine ⟨fetches, [.distinct (.ok ())], ascending, asks, hlog, fun _ => ⟨_, rfl⟩,
        fun h => absurd hsome h, ?_, ?_⟩
      · intro _
        -- The mark is no call that a translation heeds, like the fetches before it.
        have hloads : ∀ call ∈ fetches ++ [EngineCall.distinct (.ok ())],
            call.filters = false := by
          refine List.forall_mem_append.mpr ⟨hfetches, ?_⟩
          simp [EngineCall.filters, EngineCall.ask, EngineAsk.filters]
        have hgoes : buildCompiled e.watched true criteria (s, []) =
            (toExpression e.watched criteria.predicate
              (e.after s ((fetches ++ [EngineCall.distinct (.ok ())]).map EngineCall.ask),
                fetches ++ [.distinct (.ok ())]), e.skippedBy fetches) := by
          rw [hbuild, List.map_append, e.after_append]
          rfl
        exact build_after_loads heeds hcriteria hloads hgoes
      · intro x hx
        simp at hx
  | failed x =>
      have hsome : SomeFetched fetches := happlied.mp rfl
      refine ⟨fetches, [.distinct (.error x)], ascending, asks, hlog, fun _ => ⟨_, rfl⟩,
        fun h => absurd hsome h, ?_, ?_⟩
      · -- A mark that fails is a failed call, so nothing is left to be said of the rest.
        intro unbroken
        have herror := unbroken (.distinct (.error x)) (by simp)
        simp [EngineCall.error?, errorOf?] at herror
      · intro y hy
        obtain rfl : y = x := by simpa using hy
        simp only [build_watched e, QueryEngine.callsOf, build_of_compile_ok hcriteria, hbuild]
        exact ⟨rfl, trivial⟩

/-- The plain build neither fetches nor asks for distinct results, and the eager one does so first
and then the same as the plain one, unless the criteria do not compile at all. -/
theorem failed_fetches_leave_filtering (e : QueryEngine σ ε Pos Attr Expr) (s : σ)
    (heeds : e.Heeds s EngineAsk.filters EngineAsk.filters) (cache : IntentCache) (i : Instance) :
    (∀ call ∈ e.callsOf cache i false s, call.filters = true) ∧
      (build e cache i false s).log = (compile cache i).log ∧
      ((∃ x, (compile cache i).result = .error x ∧ ∀ eager,
          (build e cache i eager s).result = .error (.criteria x) ∧
            (build e cache i eager s).log = (compile cache i).log ∧
            e.callsOf cache i eager s = []) ∨
        ∃ criteria fetches marks, (compile cache i).result = .ok criteria ∧
          FetchesFirst e s cache i criteria.hints fetches marks) := by
  rcases hcriteria : (compile cache i).result with x | criteria
  · have hbuild := fun eager => build_of_compile_error (e := e) hcriteria eager s
    have hcalls : ∀ eager, e.callsOf cache i eager s = [] := by
      intro eager
      rw [QueryEngine.callsOf, build_of_compile_error hcriteria]
    refine ⟨by simp [hcalls], by rw [hbuild], Or.inl ⟨x, rfl, fun eager => ?_⟩⟩
    rw [hbuild, hcalls]
    exact ⟨rfl, rfl, rfl⟩
  · have hnone : ∀ call ∈ ([] : List (EngineCall ε Pos Attr Expr)), call.filters = false := by
      simp
    obtain ⟨result, _, s', calls, _, hplain, hcalls⟩ :=
      toExpression_after_loads heeds hnone criteria.predicate
    obtain ⟨fetches, marks, first⟩ := exists_fetchesFirst heeds hcriteria
    refine ⟨?_, ?_, Or.inr ⟨criteria, fetches, marks, rfl, first⟩⟩
    · simp only [QueryEngine.callsOf, build_of_compile_ok hcriteria, plain_watched, hplain]
      exact hcalls
    · simp only [build_of_compile_ok hcriteria]
      exact List.append_nil _

theorem failed_fetches_leave_filtering_ratedSupplies :
    (recordingEngine ⟨["category"], [], [], []⟩).Heeds [] EngineAsk.filters EngineAsk.filters ∧
      ∃ criteria fetches marks,
        (compile .empty ⟨.declared ratedSupplies, ratedValues⟩).result = .ok criteria ∧
        FetchesFirst (recordingEngine ⟨["category"], [], [], []⟩) [] .empty
          ⟨.declared ratedSupplies, ratedValues⟩ criteria.hints fetches marks := by
  have heeds := heeds_recording ⟨["category"], [], [], []⟩ [] EngineAsk.filters EngineAsk.filters
  have compiles : (compile .empty ⟨.declared ratedSupplies, ratedValues⟩).result.toOption.isSome =
      true := by decide +kernel
  refine ⟨heeds, ?_⟩
  obtain ⟨_, _, failed | first⟩ := failed_fetches_leave_filtering _ [] heeds .empty
    ⟨.declared ratedSupplies, ratedValues⟩
  · obtain ⟨x, hx, _⟩ := failed
    rw [hx] at compiles
    cases compiles
  · exact first

example : (build (recordingEngine ⟨["category"], [], [], []⟩) .empty
    ⟨.declared ratedSupplies, ratedValues⟩ true []).engine =
      [.fetch "category", .fetch "reviews", .distinct, .join "/category",
        .join "/category/supplier", .get "/category/supplier/name", .join "/reviews",
        .get "/reviews/rating"] := by decide +kernel

end CatalogSearch.Criteria
