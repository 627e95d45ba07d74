import CatalogSearch.Proofs.Criteria.Handles
import CatalogSearch.Proofs.Criteria.Hints
import CatalogSearch.Proofs.Criteria.IntentCache

/-!
# Builds one after another

`buildAll` runs jobs in order, each on one of several engines, which keep their states from job to
job as the cache of intents is kept.  Main statement: `builds_do_not_leak`.  No build hands an engine
a position that it did not get during this build; and where answers do not depend on earlier calls,
each build makes the calls, gives the result and writes the log that it would as the only one, but
for the record of an extraction that an earlier job made already.
-/

set_option autoImplicit false

namespace CatalogSearch.Criteria

variable {κ σ ε Pos Attr Expr : Type}

/-! ## Jobs and their traces -/

structure Job (κ : Type) where
  engine : κ
  instance_ : Instance
  eager : Bool

abbrev Job.type (job : Job κ) : DescriptorType := job.instance_.type

/-- What is seen of a build. -/
structure BuildTrace (ε Pos Attr Expr : Type) where
  result : Except (BuildError ε) Expr
  calls : List (EngineCall ε Pos Attr Expr)
  log : List LogRecord

def traceOf (e : QueryEngine σ ε Pos Attr Expr) (cache : IntentCache) (job : Job κ) (s : σ) :
    BuildTrace ε Pos Attr Expr :=
  ⟨(build e cache job.instance_ job.eager s).result,
    e.callsOf cache job.instance_ job.eager s,
    (build e cache job.instance_ job.eager s).log⟩

def buildAll [DecidableEq κ] (engines : κ → QueryEngine σ ε Pos Attr Expr) :
    IntentCache → (κ → σ) → List (Job κ) → List (BuildTrace ε Pos Attr Expr)
  | _, _, [] => []
  | cache, states, job :: rest =>
      let run := build (engines job.engine) cache job.instance_ job.eager (states job.engine)
      traceOf (engines job.engine) cache job (states job.engine) ::
        buildAll engines run.cache (Function.update states job.engine run.engine) rest

theorem sourced_buildAll [DecidableEq κ] (engines : κ → QueryEngine σ ε Pos Attr Expr) :
    ∀ (jobs : List (Job κ)) (cache : IntentCache) (states : κ → σ),
      List.Forall₂ (fun job trace => Sourced (engines job.engine).root trace.calls) jobs
        (buildAll engines cache states jobs) := by
  intro jobs
  induction jobs with
  | nil => intro cache states; exact .nil
  | cons job rest ih =>
      intro cache states
      exact .cons (sourced_build (engines job.engine) cache job.instance_ job.eager
        (states job.engine)) (ih _ _)

/-! ## What the cache of intents knows -/

def readIn (jobs : List (Job κ)) (type : DescriptorType) : Bool :=
  jobs.any fun job => job.type.key? = type.key?

def OneTypePerKey (jobs : List (Job κ)) : Prop :=
  ∀ job ∈ jobs, ∀ job' ∈ jobs, ∀ d d', job.type = .declared d → job'.type = .declared d' →
    d.key = d'.key → d = d'

/-- Of the types of `jobs`, the cache has the intents of those that the jobs `done` extracted. -/
def Remembers (cache : IntentCache) (jobs done : List (Job κ)) : Prop :=
  ∀ job ∈ jobs, ∀ d, job.type = .declared d →
    cache.entries.lookup d.key = if readIn done (.declared d) then d.intents?.toOption else none

section Cache

variable {cache : IntentCache} {jobs done : List (Job κ)}

theorem remembers_empty (jobs : List (Job κ)) : Remembers .empty jobs [] := by
  intro job _ d _
  rfl

theorem Remembers.readsAs (remembers : Remembers cache jobs done) {job : Job κ}
    (hjob : job ∈ jobs) : ReadsAs cache job.type (readIn done job.type) := by
  cases htype : job.type with
  | declared d => exact readsAs_declared (remembers job hjob d htype)
  | foreign shown => exact readsAs_of_key?_eq_none rfl _
  | unhashable kind => exact readsAs_of_key?_eq_none rfl _

theorem Remembers.read (remembers : Remembers cache jobs done) {job : Job κ} (hjob : job ∈ jobs) :
    (cache.read job.type).result = (IntentCache.empty.read job.type).result ∧
      (IntentCache.empty.read job.type).log = job.type.extraction ∧
      (cache.read job.type).log = if readIn done job.type then [] else job.type.extraction := by
  have reads := remembers.readsAs hjob
  have alone := (remembers_empty jobs).readsAs hjob
  exact ⟨reads.result.trans alone.result.symm, alone.log, reads.log⟩

theorem readIn_append_singleton (done : List (Job κ)) (job : Job κ) (type : DescriptorType) :
    readIn (done ++ [job]) type = (readIn done type || decide (job.type.key? = type.key?)) := by
  simp [readIn]

theorem Remembers.step (remembers : Remembers cache jobs done) (one : OneTypePerKey jobs)
    {job : Job κ} (hjob : job ∈ jobs) :
    Remembers (cache.read job.type).cache jobs (done ++ [job]) := by
  intro other hother d hd
  have hlookup := remembers other hother d hd
  rw [readIn_append_singleton]
  cases htype : job.type with
  | declared d' =>
      rw [entries_read_declared, lookup_memo]
      by_cases hkey : d.key = d'.key
      · obtain rfl := one job hjob other hother d' d htype hd hkey.symm
        rw [if_pos rfl, hlookup, decide_eq_true rfl, Bool.or_true, if_pos rfl]
        cases readIn done (.declared d') <;> cases d'.intents? <;> rfl
      · have hdiffers : DescriptorType.key? (.declared d') ≠ DescriptorType.key? (.declared d) :=
          fun h => hkey (Option.some.inj h).symm
        rw [if_neg hkey, decide_eq_false hdiffers, Bool.or_false, hlookup]
  | foreign shown => simpa [DescriptorType.key?, IntentCache.read] using hlookup
  | unhashable kind => simpa [DescriptorType.key?, IntentCache.read] using hlookup

end Cache

/-! ## Compiling and building after other jobs -/

theorem repeats_applyHints (e : QueryEngine σ ε Pos Attr Expr) : ∀ (hints : List String) (s : σ),
    ∀ record ∈ (applyHints e hints s).log, record.Repeats := by
  intro hints
  induction hints with
  | nil => intro s; simp [applyHints]
  | cons name rest ih =>
      intro s
      simp only [applyHints]
      rcases e.fetch name s with ⟨x | _, s'⟩
      · exact List.forall_mem_cons.mpr ⟨trivial, ih s'⟩
      · exact ih s'

theorem compile_congr {cache cache' : IntentCache} {i : Instance}
    (h : (cache.read i.type).result = (cache'.read i.type).result) :
    (compile cache i).result = (compile cache' i).result ∧
      ∃ log, (∀ record ∈ log, record.Repeats) ∧
        (compile cache i).log = (cache.read i.type).log ++ log ∧
        (compile cache' i).log = (cache'.read i.type).log ++ log := by
  simp only [compile, h]
  cases (cache'.read i.type).result with
  | error x => exact ⟨rfl, [], by simp, (List.append_nil _).symm, (List.append_nil _).symm⟩
  | ok intents => exact ⟨rfl, _, repeats_compileFields i intents, rfl, rfl⟩

theorem log_build (e : QueryEngine σ ε Pos Attr Expr) (cache : IntentCache) (i : Instance)
    (eager : Bool) (s : σ) : ∃ log, (∀ record ∈ log, record.Repeats) ∧
      (build e cache i eager s).log = (compile cache i).log ++ log := by
  cases hcriteria : (compile cache i).result with
  | error x =>
      refine ⟨[], by simp, ?_⟩
      rw [build_of_compile_error hcriteria, List.append_nil]
  | ok criteria =>
      refine ⟨_, repeats_applyHints e (if eager then criteria.hints else []) s, ?_⟩
      rw [build_of_compile_ok hcriteria]
      rfl

theorem cache_build (e : QueryEngine σ ε Pos Attr Expr) (cache : IntentCache) (i : Instance)
    (eager : Bool) (s : σ) : (build e cache i eager s).cache = (cache.read i.type).cache := by
  have hcompile : (compile cache i).cache = (cache.read i.type).cache := by
    simp only [compile]
    cases (cache.read i.type).result <;> rfl
  rw [← hcompile]
  cases hcriteria : (compile cache i).result with
  | error x => rw [build_of_compile_error hcriteria]
  | ok criteria => rw [build_of_compile_ok hcriteria]

/-- The trace is that of the job alone, up to the record of an extraction that an earlier job of
the type made. -/
structure LikeAlone (earlier : List (Job κ)) (job : Job κ)
    (alone trace : BuildTrace ε Pos Attr Expr) : Prop where
  result : trace.result = alone.result
  calls : trace.calls = alone.calls
  log : ∃ rest, (∀ record ∈ rest, record.Repeats) ∧ alone.log = job.type.extraction ++ rest ∧
    trace.log = (if readIn earlier job.type then [] else job.type.extraction) ++ rest

theorem traceOf_likeAlone {e : QueryEngine σ ε Pos Attr Expr} {s : σ}
    (heeds : e.Heeds s (fun _ => false) fun _ => true)
    (history : List (EngineAsk Pos Attr Expr)) {cache : IntentCache} {jobs done : List (Job κ)}
    (remembers : Remembers cache jobs done) {job : Job κ} (hjob : job ∈ jobs) :
    LikeAlone done job (traceOf e .empty job s) (traceOf e cache job (e.after s history)) := by
  obtain ⟨hread, hempty, hlog⟩ := remembers.read hjob
  obtain ⟨hcompile, compiled, hrepeats, hcompiled, hcompiled'⟩ := compile_congr hread
  obtain ⟨hresult, hcalls, _, built, hbuilt, hbuilt'⟩ :=
    build_heeding heeds hcompile job.eager history
  obtain ⟨loaded, hloaded, hlog'⟩ := log_build e .empty job.instance_ job.eager s
  obtain rfl := List.append_cancel_left (hbuilt'.symm.trans hlog')
  have rest := List.forall_mem_append.mpr ⟨hrepeats, hloaded⟩
  refine ⟨hresult, hcalls, compiled ++ built, rest, ?_, ?_⟩
  · rw [← hempty, ← List.append_assoc, ← hcompiled']
    exact hbuilt'
  · rw [← hlog, ← List.append_assoc]
    exact hbuilt.trans (congrArg (· ++ built) hcompiled)

/-! ## Sequences of builds -/

section Sequences

variable [DecidableEq κ] {engines : κ → QueryEngine σ ε Pos Attr Expr} {start : κ → σ}

/-- An engine's state is where its calls led from its start. -/
def Derived (engines : κ → QueryEngine σ ε Pos Attr Expr) (start states : κ → σ) : Prop :=
  ∀ k, ∃ history, states k = (engines k).after (start k) history

theorem Derived.step (heeds : ∀ k, (engines k).Heeds (start k) (fun _ => false) fun _ => true)
    {states : κ → σ} (derived : Derived engines start states) (cache : IntentCache) (job : Job κ) :
    Derived engines start (Function.update states job.engine
      (build (engines job.engine) cache job.instance_ job.eager (states job.engine)).engine) := by
  intro k
  by_cases hk : k = job.engine
  · subst hk
    obtain ⟨history, hstate⟩ := derived job.engine
    obtain ⟨_, _, ⟨more, hmore⟩, _⟩ := build_heeding (heeds job.engine)
      (rfl : (compile cache job.instance_).result = _) job.eager history
    rw [Function.update_self, hstate]
    exact ⟨_, hmore⟩
  · rw [Function.update_of_ne hk]
    exact derived k

theorem buildAll_likeAlone
    (heeds : ∀ k, (engines k).Heeds (start k) (fun _ => false) fun _ => true)
    {jobs : List (Job κ)} (one : OneTypePerKey jobs) {job : Job κ} (later : List (Job κ)) :
    ∀ (earlier done : List (Job κ)) {cache : IntentCache} {states : κ → σ},
      (∀ other ∈ earlier ++ job :: later, other ∈ jobs) → Remembers cache jobs done →
      Derived engines start states →
      ∃ trace, (buildAll engines cache states (earlier ++ job :: later))[earlier.length]? =
          some trace ∧
        LikeAlone (done ++ earlier) job
          (traceOf (engines job.engine) .empty job (start job.engine)) trace := by
  intro earlier
  induction earlier with
  | nil =>
      intro done cache states among remembers derived
      obtain ⟨history, hstate⟩ := derived job.engine
      refine ⟨traceOf (engines job.engine) cache job (states job.engine), rfl, ?_⟩
      rw [List.append_nil, hstate]
      exact traceOf_likeAlone (heeds job.engine) history remembers (among job (by simp))
  | cons first rest ih =>
      intro done cache states among remembers derived
      obtain ⟨hfirst, hrest⟩ := List.forall_mem_cons.mp among
      have remembers' := remembers.step one hfirst
      rw [← cache_build (engines first.engine) cache first.instance_ first.eager
        (states first.engine)] at remembers'
      -- The first job is done, and its engine is where its calls led it.
      obtain ⟨trace, htrace, like⟩ := ih (done ++ [first]) hrest remembers'
        (derived.step heeds cache first)
      refine ⟨trace, htrace, ?_⟩
      rwa [← List.append_cons] at like

/-- Builds on engines of any kind use only positions of their own; and on engines whose answers do
not depend on earlier calls, each is like the only one. -/
theorem builds_do_not_leak (engines : κ → QueryEngine σ ε Pos Attr Expr) (start : κ → σ)
    (jobs : List (Job κ)) :
    List.Forall₂ (fun job trace => Sourced (engines job.engine).root trace.calls) jobs
        (buildAll engines .empty start jobs) ∧
      ((∀ k, (engines k).Heeds (start k) (fun _ => false) fun _ => true) → OneTypePerKey jobs →
        ∀ earlier job later, jobs = earlier ++ job :: later →
          ∃ trace, (buildAll engines .empty start jobs)[earlier.length]? = some trace ∧
            LikeAlone earlier job
              (traceOf (engines job.engine) .empty job (start job.engine)) trace) := by
  refine ⟨sourced_buildAll engines jobs .empty start, ?_⟩
  intro heeds one earlier job later hjobs
  subst hjobs
  have derived : Derived engines start start := fun k => ⟨[], rfl⟩
  exact buildAll_likeAlone heeds one later earlier [] (fun _ h => h) (remembers_empty _) derived

end Sequences

def supplyEngines (k : Bool) :
    QueryEngine (List RecordedEvent) RecordingError (Option String) String RecordedExpr :=
  recordingEngine ⟨["reviews"], if k then [] else ["supplier"], [], []⟩

/-- A search that fails, and then others on the same engine and on another one. -/
def supplyJobs : List (Job Bool) :=
  [⟨false, ⟨.declared ratedSupplies, ratedValues⟩, true⟩,
    ⟨false, ⟨.declared ratedSupplies, []⟩, true⟩,
    ⟨false, ⟨.declared ratedSupplies, ratedValues⟩, false⟩,
    ⟨true, ⟨.declared ratedSupplies, ratedValues⟩, true⟩]

theorem builds_do_not_leak_supplyJobs :
    (∀ k, (supplyEngines k).Heeds [] (fun _ => false) fun _ => true) ∧ OneTypePerKey supplyJobs ∧
      ∃ trace, (buildAll supplyEngines .empty (fun _ => []) supplyJobs)[3]? = some trace ∧
        LikeAlone (supplyJobs.take 3) ⟨true, ⟨.declared ratedSupplies, ratedValues⟩, true⟩
          (traceOf (κ := Bool) (supplyEngines true) .empty
            ⟨true, ⟨.declared ratedSupplies, ratedValues⟩, true⟩ []) trace := by
  have heeds : ∀ k, (supplyEngines k).Heeds [] (fun _ => false) fun _ => true :=
    fun k => heeds_recording _ [] _ _
  have one : OneTypePerKey supplyJobs := by
    have same : ∀ job ∈ supplyJobs, job.type = .declared ratedSupplies := by
      intro job hjob
      simp only [supplyJobs, List.mem_cons, List.not_mem_nil, or_false] at hjob
      rcases hjob with rfl | rfl | rfl | rfl <;> rfl
    intro job hjob job' hjob' d d' hd hd' _
    obtain rfl := DescriptorType.declared.inj ((same job hjob).symm.trans hd)
    exact DescriptorType.declared.inj ((same job' hjob').symm.trans hd')
  exact ⟨heeds, one, (builds_do_not_leak supplyEngines (fun _ => []) supplyJobs).2 heeds one
    (supplyJobs.take 3) _ [] rfl⟩

end CatalogSearch.Criteria
