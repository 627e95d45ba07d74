import CatalogSearch.Proofs.Catalog.Graph
import CatalogSearch.Proofs.Sql.Fetched

/-!
# Operations that fail

Over a constructed graph a step of a script fails only for one of the reasons that `Refusal` lists,
and then it leaves the query as it was.  Main statement: `operations_atomic`.  All that comes after a
failed step goes as it would without it, and at any time the query has one alias for each join and has
fetched, in the order of the script, different to-one relationships of its root.
-/

set_option autoImplicit false

namespace CatalogSearch.Sql

open Criteria

/-! ## Steps that are refused -/

theorem run_of_refusal {outcomes : List Outcome} {q : Query} {step : Step} {e : QueryError}
    (refusal : Refusal outcomes q step e) : step.run outcomes q = (.failed e, q) := by
  cases refusal with
  | unknownRelationship given unknown =>
      simp only [Step.run, given, perform, join_of_unknown (relationship?_eq_error unknown),
        outcomeOf]
  | unknownAttribute given unknown =>
      simp only [Step.run, given, perform, columnCall, position_column?_eq_error unknown,
        Except.mapError, outcomeOf]
  | unknownFetch fresh unknown =>
      simp only [Step.run, perform, fetch_of_unknown fresh (relationship?_eq_error unknown),
        outcomeOf]
  | repeatedFetch again =>
      have fetched := congrArg Option.isSome again
      simp only [Step.run, perform, fetch_of_fetched fetched, outcomeOf]
  | toManyFetch fresh known toMany =>
      simp only [Step.run, perform,
        fetch_of_toMany fresh (EntityGraph.relationship?_eq_ok.mpr known) toMany, outcomeOf]
  | emptyMembership given => simp only [Step.run, given, Column.compare?, outcomeOf]
  | emptyGroup connective => rfl

/-! ## What always holds -/

/-- All that a script made is from the graph, and its fetches are of to-one relationships. -/
structure Standing (g : EntityGraph) (root : Entity) (outcomes : List Outcome) (q : Query) :
    Prop where
  outcomes : ∀ o ∈ outcomes, o.From g
  from_ : q.From g
  fetches : q.Fetches g root
  toOne : ∀ f ∈ q.fetched, ∀ via, root.relationship? f.1 = .ok via → via.toMany = false

section Standing

variable {g : EntityGraph} {root : Entity} {outcomes : List Outcome} {q : Query}

theorem standing_of_start? {entity : String} (h : Query.start? g entity = .ok q) :
    Standing g q.root [] q where
  outcomes := by simp
  from_ := from_of_start? h
  fetches := fetches_of_start? h
  toOne := by
    obtain ⟨root, _, rfl⟩ := start?_eq_ok.mp h
    simp

theorem Standing.effect (hg : g.Constructed) (h : Standing g root outcomes q) {step : Step}
    {outcome : Outcome} {q' : Query} (effect : Effect outcomes q step outcome q') :
    Standing g root (outcomes ++ [outcome]) q' := by
  obtain ⟨houtcome, hfrom⟩ := from_of_effect hg h.outcomes h.from_ effect
  refine ⟨List.forall_mem_append.mpr ⟨h.outcomes, by simpa using houtcome⟩, hfrom,
    fetches_of_effect h.fetches effect, ?_⟩
  cases effect with
  | @fetch relationship via target fresh known toOne found =>
      intro f hf via' hvia'
      rcases List.mem_append.mp hf with hf | hf
      · exact h.toOne f hf via' hvia'
      · obtain rfl := List.mem_singleton.mp hf
        rw [← h.fetches.ofRoot] at hvia'
        obtain rfl := Except.ok.inj (known.symm.trans hvia')
        exact toOne
  | _ => exact h.toOne

theorem standing_after (hg : g.Constructed) {entity : String} (h : Query.start? g entity = .ok q)
    (steps : List Step) :
    Standing g q.root (outcomesOf [] q steps) (queryAfter [] q steps) := by
  have kept := script_keeps (Standing g q.root) (fun standing => standing.effect hg) steps
    (standing_of_start? h)
  rwa [List.nil_append] at kept

/-- A step fails exactly if it is refused, and then it changes nothing. -/
theorem Standing.fails_iff (hg : g.Constructed) (h : Standing g root outcomes q) (step : Step)
    (e : QueryError) (q' : Query) :
    step.run outcomes q = (.failed e, q') ↔ Refusal outcomes q step e ∧ q' = q := by
  constructor
  · intro hrun
    have effect := effect_of_run outcomes q step
    rw [hrun] at effect
    cases effect with
    | refused refusal => exact ⟨refusal, rfl⟩
    | strayed stray => exact (not_stray hg (fun _ hp => h.outcomes _ hp) h.from_ stray).elim
  · rintro ⟨refusal, rfl⟩
    exact run_of_refusal refusal

end Standing

/-! ## Fetches in order -/

def fetchMade : Step × Outcome × Query → Option String
  | (.fetch relationship, .done, _) => some relationship
  | _ => none

def fetchesMade (outcomes : List Outcome) (q : Query) (steps : List Step) : List String :=
  (steps.zip (runSteps outcomes q steps)).filterMap fetchMade

theorem keys_of_effect {outcomes : List Outcome} {q q' : Query} {step : Step} {outcome : Outcome}
    (effect : Effect outcomes q step outcome q') :
    q'.fetched.map Prod.fst =
      q.fetched.map Prod.fst ++ (fetchMade (step, outcome, q')).toList := by
  cases effect with
  | fetch fresh known toOne found => simp [Query.withFetch, fetchMade]
  | _ => simp [Query.withJoin, Query.takeAlias, fetchMade]

theorem keys_after : ∀ (steps : List Step) (outcomes : List Outcome) (q : Query),
    (queryAfter outcomes q steps).fetched.map Prod.fst =
      q.fetched.map Prod.fst ++ fetchesMade outcomes q steps := by
  intro steps
  induction steps with
  | nil => intro outcomes q; simp [queryAfter, fetchesMade]
  | cons step rest ih =>
      intro outcomes q
      have hstep : fetchMade (step, step.run outcomes q) =
          fetchMade (step, (step.run outcomes q).1, (step.run outcomes q).2) := rfl
      rw [queryAfter, ih, keys_of_effect (effect_of_run outcomes q step), fetchesMade, fetchesMade,
        runSteps_cons, List.zip_cons_cons, List.filterMap_cons, ← hstep, List.append_assoc]
      rcases fetchMade (step, step.run outcomes q) with _ | relationship <;> rfl

/-! ## Scripts without a failed step -/

def Step.references : Step → List Nat
  | .join parent _ => [parent]
  | .get position _ => [position]
  | .compare column _ => [column]
  | .group _ operands => operands
  | .render condition => [condition]
  | _ => []

def Step.mapReferences (f : Nat → Nat) : Step → Step
  | .join parent relationship => .join (f parent) relationship
  | .get position name => .get (f position) name
  | .compare column comparison => .compare (f column) comparison
  | .group connective operands => .group connective (operands.map f)
  | .render condition => .render (f condition)
  | step => step

/-- The numbers of steps after one of them was taken out. -/
def closeUp (removed n : Nat) : Nat := if n < removed then n else n - 1

theorem getElem?_closeUp {α : Type} (earlier later : List α) (a : α) {n : Nat}
    (h : n ≠ earlier.length) :
    (earlier ++ later)[closeUp earlier.length n]? = (earlier ++ a :: later)[n]? := by
  rw [closeUp]
  split
  · rename_i hbefore
    rw [List.getElem?_append_left hbefore, List.getElem?_append_left hbefore]
  · rename_i hafter
    obtain ⟨m, rfl⟩ : ∃ m, n = earlier.length + 1 + m := ⟨n - (earlier.length + 1), by omega⟩
    rw [List.getElem?_append_right (by omega), List.getElem?_append_right (by omega)]
    have hleft : earlier.length + 1 + m - 1 - earlier.length = m := by omega
    have hright : earlier.length + 1 + m - earlier.length = m + 1 := by omega
    rw [hleft, hright, List.getElem?_cons_succ]

theorem mapM_conditionAt?_map {outcomes outcomes' : List Outcome} {f : Nat → Nat} :
    ∀ operands : List Nat, (∀ n ∈ operands, outcomes'[f n]? = outcomes[n]?) →
      (operands.map f).mapM (conditionAt? outcomes') = operands.mapM (conditionAt? outcomes) := by
  intro operands
  induction operands with
  | nil => intro _; rfl
  | cons n rest ih =>
      intro same
      obtain ⟨hn, hrest⟩ := List.forall_mem_cons.mp same
      have hcondition : conditionAt? outcomes' (f n) = conditionAt? outcomes n := by
        simp only [conditionAt?, hn]
      rw [List.map_cons, List.mapM_cons, List.mapM_cons, hcondition, ih hrest]

theorem run_mapReferences {outcomes outcomes' : List Outcome} {f : Nat → Nat} {step : Step}
    (same : ∀ n ∈ step.references, outcomes'[f n]? = outcomes[n]?) (q : Query) :
    (step.mapReferences f).run outcomes' q = step.run outcomes q := by
  cases step with
  | join parent relationship =>
      have hparent := same parent (by simp [Step.references])
      simp only [Step.mapReferences, Step.run, positionAt?, hparent]
  | get position name =>
      have hposition := same position (by simp [Step.references])
      simp only [Step.mapReferences, Step.run, positionAt?, hposition]
  | compare column comparison =>
      have hcolumn := same column (by simp [Step.references])
      simp only [Step.mapReferences, Step.run, columnAt?, hcolumn]
  | group connective operands =>
      have hoperands := mapM_conditionAt?_map operands same
      simp only [Step.mapReferences, Step.run, hoperands]
  | render condition =>
      have hcondition := same condition (by simp [Step.references])
      simp only [Step.mapReferences, Step.run, conditionAt?, hcondition]
  | root | fetch | distinct | truth => rfl

/-- Steps that do not refer to a step without effect go as they would without it. -/
theorem runSteps_without (earlier : List Outcome) (lost : Outcome) :
    ∀ (steps : List Step) (later : List Outcome) (q : Query),
      (∀ step ∈ steps, earlier.length ∉ step.references) →
      runSteps (earlier ++ later) q (steps.map (Step.mapReferences (closeUp earlier.length))) =
        runSteps (earlier ++ lost :: later) q steps := by
  intro steps
  induction steps with
  | nil => intro later q _; rfl
  | cons step rest ih =>
      intro later q unreferred
      obtain ⟨hstep, hrest⟩ := List.forall_mem_cons.mp unreferred
      have hrun : (step.mapReferences (closeUp earlier.length)).run (earlier ++ later) q =
          step.run (earlier ++ lost :: later) q := by
        refine run_mapReferences ?_ q
        intro n hn
        exact getElem?_closeUp earlier later lost fun e => hstep (e ▸ hn)
      rw [List.map_cons, runSteps_cons, runSteps_cons, hrun, List.append_assoc, List.append_assoc,
        ih _ _ hrest, List.cons_append]

/-! ## Atomic operations -/

structure Atomic (g : EntityGraph) (start : Query) (before : List Step) : Prop where
  fails : ∀ step e q',
    step.run (outcomesOf [] start before) (queryAfter [] start before) = (.failed e, q') ↔
      Refusal (outcomesOf [] start before) (queryAfter [] start before) step e ∧
        q' = queryAfter [] start before
  /-- What comes after it goes as in the script without it. -/
  unmade : ∀ step e q' after,
    step.run (outcomesOf [] start before) (queryAfter [] start before) = (.failed e, q') →
    (∀ s ∈ after, before.length ∉ s.references) →
    ∃ later,
      runSteps [] start (before ++ step :: after) =
        runSteps [] start before ++ (.failed e, q') :: later ∧
      runSteps [] start (before ++ after.map (Step.mapReferences (closeUp before.length))) =
        runSteps [] start before ++ later
  counted : (queryAfter [] start before).lastAlias = (queryAfter [] start before).joins.length
  toOne : ∀ f ∈ (queryAfter [] start before).fetched, ∃ via,
    start.root.relationships.lookup f.1 = some via ∧ via.toMany = false ∧
      g.entity? via.target = .ok f.2.entity
  /-- It fetched them in the order of the script, none of them twice. -/
  inOrder : (queryAfter [] start before).fetched.map Prod.fst = fetchesMade [] start before
  different : ((queryAfter [] start before).fetched.map Prod.fst).Nodup

/-- Whatever a script has done to a query over a constructed graph, its operations are atomic. -/
theorem operations_atomic {g : EntityGraph} (hg : g.Constructed) {entity : String} {q : Query}
    (h : Query.start? g entity = .ok q) (before : List Step) : Atomic g q before := by
  have standing := standing_after hg h before
  have fails := standing.fails_iff hg
  refine ⟨fails, ?_, standing.from_.counted, ?_, ?_, standing.fetches.keys⟩
  · intro step e q' after hfailed unreferred
    obtain ⟨_, rfl⟩ := (fails step e q').mp hfailed
    have hlength := length_outcomesOf before [] q
    refine ⟨runSteps (outcomesOf [] q before ++ [.failed e]) (queryAfter [] q before) after, ?_, ?_⟩
    · rw [runSteps_append, List.nil_append, runSteps_cons, hfailed]
    · have without := runSteps_without (outcomesOf [] q before) (.failed e) after []
        (queryAfter [] q before) (by rwa [hlength])
      rw [hlength, List.append_nil] at without
      rw [runSteps_append, List.nil_append, without]
  · intro f hf
    obtain ⟨via, known, found⟩ := standing.fetches.links f hf
    exact ⟨via, EntityGraph.relationship?_eq_ok.mp known, standing.toOne f hf via known, found⟩
  · obtain ⟨root, _, rfl⟩ := start?_eq_ok.mp h
    rw [keys_after, List.map_nil, List.nil_append]

theorem operations_atomic_catalog :
    ∃ q, Query.start? Catalog.graph "product" = .ok q ∧
      Atomic Catalog.graph q [.root, .fetch "supplier", .join 0 "category", .fetch "reviews",
        .join 2 "reviews", .fetch "category", .fetch "category", .get 2 "price", .group .any []] := by
  have start : Query.start? Catalog.graph "product" =
    .ok ⟨Catalog.graph, Catalog.product, [], [], false, 0⟩ := rfl
  exact ⟨_, start, operations_atomic Catalog.graph_constructed start _⟩

example : fetchesMade [] ⟨Catalog.graph, Catalog.product, [], [], false, 0⟩
    [.fetch "supplier", .fetch "reviews", .fetch "category", .fetch "category"] =
      ["category"] := by decide

end CatalogSearch.Sql
