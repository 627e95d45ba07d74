import CatalogSearch.Proofs.Sql.Operations
import CatalogSearch.Sql.Script

/-!
# What scripts do

`Effect outcomes q step outcome q'` lists what a step after `outcomes` can do to a query: what it
refers to was given by earlier steps, and a step that is refused leaves the query as it was
(`effect_of_run`).  `Refusal` lists the reasons.  One failure is no refusal: a step that strays, along
a relationship whose target the graph lacks, has taken an alias by then.  What every effect preserves
holds along every script (`runSteps_keeps`), and a script may be taken apart at any step
(`runSteps_append`).
-/

set_option autoImplicit false

namespace CatalogSearch.Sql

open Criteria

/-- Why a step is refused. -/
inductive Refusal (outcomes : List Outcome) (q : Query) : Step → QueryError → Prop
  | unknownRelationship {parent : Nat} {relationship : String} {p : Position}
      (given : positionAt? outcomes parent = some p)
      (unknown : p.entity.relationships.lookup relationship = none) :
      Refusal outcomes q (.join parent relationship)
        (.schema (.unknownRelationship p.entity.name relationship))
  | unknownAttribute {position : Nat} {name : String} {p : Position}
      (given : positionAt? outcomes position = some p) (unknown : name ∉ p.entity.columns) :
      Refusal outcomes q (.get position name) (.schema (.unknownAttribute p.entity.name name))
  | unknownFetch {relationship : String} (fresh : q.fetched.lookup relationship = none)
      (unknown : q.root.relationships.lookup relationship = none) :
      Refusal outcomes q (.fetch relationship)
        (.schema (.unknownRelationship q.root.name relationship))
  | repeatedFetch {relationship : String} {position : Position}
      (again : q.fetched.lookup relationship = some position) :
      Refusal outcomes q (.fetch relationship) (.alreadyFetched relationship)
  | toManyFetch {relationship : String} {via : Relationship}
      (fresh : q.fetched.lookup relationship = none)
      (known : q.root.relationships.lookup relationship = some via) (toMany : via.toMany = true) :
      Refusal outcomes q (.fetch relationship) (.toManyFetch relationship)
  | emptyMembership {number : Nat} {column : Column}
      (given : columnAt? outcomes number = some column) :
      Refusal outcomes q (.compare number (.oneOf [])) .emptyMembership
  | emptyGroup (connective : Connective) :
      Refusal outcomes q (.group connective []) (.emptyGroup connective)

/-- A step along a relationship whose target the graph lacks. -/
inductive Stray (outcomes : List Outcome) (q : Query) : Step → SchemaError → Prop
  | join {parent : Nat} {relationship : String} {p : Position} {via : Relationship}
      {x : SchemaError} (given : .position p ∈ outcomes)
      (known : p.entity.relationship? relationship = .ok via)
      (missing : q.graph.entity? via.target = .error x) :
      Stray outcomes q (.join parent relationship) x
  | fetch {relationship : String} {via : Relationship} {x : SchemaError}
      (known : q.root.relationship? relationship = .ok via)
      (missing : q.graph.entity? via.target = .error x) :
      Stray outcomes q (.fetch relationship) x

/-- What a step can do. -/
inductive Effect (outcomes : List Outcome) (q : Query) : Step → Outcome → Query → Prop
  | root : Effect outcomes q .root (.position q.rootPosition) q
  | join {parent : Nat} {relationship : String} {p : Position} {via : Relationship}
      {target : Entity} (given : .position p ∈ outcomes)
      (known : p.entity.relationship? relationship = .ok via)
      (found : q.graph.entity? via.target = .ok target) :
      Effect outcomes q (.join parent relationship)
        (.position (q.nextPosition target .joined))
        (q.withJoin p.qualifier via (q.nextPosition target .joined))
  | get {position : Nat} {name : String} {p : Position} (given : .position p ∈ outcomes)
      (known : name ∈ p.entity.columns) :
      Effect outcomes q (.get position name) (.column ⟨p.qualifier, name⟩) q
  | fetch {relationship : String} {via : Relationship} {target : Entity}
      (fresh : q.fetched.lookup relationship = none)
      (known : q.root.relationship? relationship = .ok via) (toOne : via.toMany = false)
      (found : q.graph.entity? via.target = .ok target) :
      Effect outcomes q (.fetch relationship) .done
        (q.withFetch relationship via (q.nextPosition target .fetched))
  | distinct : Effect outcomes q .distinct .done { q with distinct := true }
  | compare {number : Nat} {column : Column} {comparison : Comparison}
      (given : .column column ∈ outcomes) (nonempty : comparison ≠ .oneOf []) :
      Effect outcomes q (.compare number comparison) (.condition (.test column comparison)) q
  | group {connective : Connective} {numbers : List Nat} {cs : List Condition} {c : Condition}
      (given : ∀ c ∈ cs, .condition c ∈ outcomes)
      (grouped : Condition.group? connective cs = .ok c) :
      Effect outcomes q (.group connective numbers) (.condition c) q
  | truth : Effect outcomes q .truth (.condition .truth) q
  | render {number : Nat} {c : Condition} (given : .condition c ∈ outcomes) :
      Effect outcomes q (.render number) (.select (q.select c)) q
  | refused {step : Step} {e : QueryError} (refusal : Refusal outcomes q step e) :
      Effect outcomes q step (.failed e) q
  | strayed {step : Step} {x : SchemaError} (stray : Stray outcomes q step x) :
      Effect outcomes q step (.failed (.schema x)) q.takeAlias
  | dangling (step : Step) : Effect outcomes q step .dangling q

theorem mem_of_positionAt? {outcomes : List Outcome} {n : Nat} {p : Position}
    (h : positionAt? outcomes n = some p) : .position p ∈ outcomes := by
  simp only [positionAt?] at h
  split at h
  · rename_i hn
    obtain rfl := Option.some.inj h
    exact List.mem_of_getElem? hn
  · cases h

theorem mem_of_columnAt? {outcomes : List Outcome} {n : Nat} {c : Column}
    (h : columnAt? outcomes n = some c) : .column c ∈ outcomes := by
  simp only [columnAt?] at h
  split at h
  · rename_i hn
    obtain rfl := Option.some.inj h
    exact List.mem_of_getElem? hn
  · cases h

theorem mem_of_conditionAt? {outcomes : List Outcome} {n : Nat} {c : Condition}
    (h : conditionAt? outcomes n = some c) : .condition c ∈ outcomes := by
  simp only [conditionAt?] at h
  split at h
  · rename_i hn
    obtain rfl := Option.some.inj h
    exact List.mem_of_getElem? hn
  · cases h

theorem mem_of_mapM_conditionAt? {outcomes : List Outcome} : ∀ (ns : List Nat)
    {cs : List Condition}, ns.mapM (conditionAt? outcomes) = some cs →
      ∀ c ∈ cs, .condition c ∈ outcomes := by
  intro ns
  induction ns with
  | nil =>
      intro cs h c hc
      obtain rfl := Option.some.inj h
      simp at hc
  | cons n rest ih =>
      intro cs h
      rw [List.mapM_cons] at h
      obtain ⟨first, hfirst, h⟩ := Option.bind_eq_some_iff.mp h
      obtain ⟨others, hothers, h⟩ := Option.bind_eq_some_iff.mp h
      obtain rfl := Option.some.inj h
      exact List.forall_mem_cons.mpr ⟨mem_of_conditionAt? hfirst, ih hothers⟩

theorem ne_nil_of_mapM {α β : Type} {f : α → Option β} {a : α} {as : List α} {bs : List β}
    (h : (a :: as).mapM f = some bs) : bs ≠ [] := by
  rw [List.mapM_cons] at h
  obtain ⟨b, _, h⟩ := Option.bind_eq_some_iff.mp h
  obtain ⟨others, _, h⟩ := Option.bind_eq_some_iff.mp h
  obtain rfl := Option.some.inj h
  exact List.cons_ne_nil b others

theorem effect_of_join {outcomes : List Outcome} {q : Query} {parent : Nat} {p : Position}
    (given : positionAt? outcomes parent = some p) (relationship : String) :
    Effect outcomes q (.join parent relationship)
      (perform .position (Query.join p relationship) q).1
      (perform .position (Query.join p relationship) q).2 := by
  have hmem := mem_of_positionAt? given
  rcases hvia : p.entity.relationships.lookup relationship with _ | via
  · simp only [perform, join_of_unknown (relationship?_eq_error hvia), outcomeOf]
    exact .refused (.unknownRelationship given hvia)
  · have known := EntityGraph.relationship?_eq_ok.mpr hvia
    rcases hfound : q.graph.entity? via.target with x | target
    · simp only [perform, join_of_known known, leftJoin_of_missing hfound, outcomeOf]
      exact .strayed (.join hmem known hfound)
    · simp only [perform, join_of_known known, leftJoin_of_found hfound, outcomeOf]
      exact .join hmem known hfound

theorem effect_of_fetch (outcomes : List Outcome) (q : Query) (relationship : String) :
    Effect outcomes q (.fetch relationship)
      (perform (fun _ => .done) (Query.fetch relationship) q).1
      (perform (fun _ => .done) (Query.fetch relationship) q).2 := by
  rcases fresh : q.fetched.lookup relationship with _ | position
  · rcases hvia : q.root.relationships.lookup relationship with _ | via
    · simp only [perform, fetch_of_unknown fresh (relationship?_eq_error hvia), outcomeOf]
      exact .refused (.unknownFetch fresh hvia)
    · have known := EntityGraph.relationship?_eq_ok.mpr hvia
      rcases hmany : via.toMany with _ | _
      · rcases hfound : q.graph.entity? via.target with x | target
        · simp only [perform, fetch_of_missing fresh known hmany hfound, outcomeOf]
          exact .strayed (.fetch known hfound)
        · simp only [perform, fetch_of_found fresh known hmany hfound, outcomeOf]
          exact .fetch fresh known hmany hfound
      · simp only [perform, fetch_of_toMany fresh known hmany, outcomeOf]
        exact .refused (.toManyFetch fresh hvia hmany)
  · have again : (q.fetched.lookup relationship).isSome = true := by
      rw [fresh, Option.isSome_some]
    simp only [perform, fetch_of_fetched again, outcomeOf]
    exact .refused (.repeatedFetch fresh)

theorem effect_of_run (outcomes : List Outcome) (q : Query) (step : Step) :
    Effect outcomes q step (step.run outcomes q).1 (step.run outcomes q).2 := by
  cases step with
  | root => exact .root
  | join parent relationship =>
      simp only [Step.run]
      rcases hp : positionAt? outcomes parent with _ | p
      · exact .dangling _
      · exact effect_of_join hp relationship
  | get position name =>
      simp only [Step.run]
      rcases hp : positionAt? outcomes position with _ | p
      · exact .dangling _
      · simp only [perform, columnCall]
        by_cases hname : name ∈ p.entity.columns
        · rw [position_column?_eq_ok.mpr ⟨hname, rfl⟩]
          exact .get (mem_of_positionAt? hp) hname
        · rw [position_column?_eq_error hname]
          exact .refused (.unknownAttribute hp hname)
  | fetch relationship => exact effect_of_fetch outcomes q relationship
  | distinct => exact .distinct
  | compare column comparison =>
      simp only [Step.run]
      rcases hcolumn : columnAt? outcomes column with _ | c
      · exact .dangling _
      · dsimp only
        by_cases hne : comparison = .oneOf []
        · subst hne
          exact .refused (.emptyMembership hcolumn)
        · rw [compare?_eq_ok.mpr ⟨hne, rfl⟩]
          exact .compare (mem_of_columnAt? hcolumn) hne
  | group connective operands =>
      simp only [Step.run]
      rcases hcs : operands.mapM (conditionAt? outcomes) with _ | cs
      · exact .dangling _
      · dsimp only
        rcases operands with _ | ⟨first, rest⟩
        · obtain rfl := Option.some.inj hcs
          exact .refused (.emptyGroup connective)
        · have hne : cs ≠ [] := ne_nil_of_mapM hcs
          have hgroup : Condition.group? connective cs = .ok (gathered connective cs) :=
            group?_eq_ok.mpr ⟨hne, rfl⟩
          rw [hgroup]
          exact .group (mem_of_mapM_conditionAt? (first :: rest) hcs) hgroup
  | truth => exact .truth
  | render condition =>
      simp only [Step.run]
      rcases hc : conditionAt? outcomes condition with _ | c
      · exact .dangling _
      · exact .render (mem_of_conditionAt? hc)

theorem Effect.rendered {outcomes : List Outcome} {q q' : Query} {step : Step} {s : Select}
    (effect : Effect outcomes q step (.select s) q') :
    ∃ c, .condition c ∈ outcomes ∧ s = q'.select c := by
  cases effect with
  | @render _ c given => exact ⟨c, given, rfl⟩

theorem select_of_runSteps : ∀ (steps : List Step) {outcomes : List Outcome} {q : Query},
    ∀ run ∈ runSteps outcomes q steps, ∀ s, run.1 = .select s → ∃ c, s = run.2.select c := by
  intro steps
  induction steps with
  | nil =>
      intro outcomes q run hrun
      simp [runSteps] at hrun
  | cons first rest ih =>
      intro outcomes q run hrun s hs
      rcases List.mem_cons.mp hrun with rfl | hrun
      · have effect : Effect outcomes q first (.select s) (first.run outcomes q).2 := by
          rw [← hs]
          exact effect_of_run outcomes q first
        obtain ⟨c, _, hselect⟩ := effect.rendered
        exact ⟨c, hselect⟩
      · exact ih run hrun s hs

theorem runSteps_effects (Keeps : List Outcome → Query → Prop)
    (step : ∀ {outcomes q step outcome q'}, Keeps outcomes q → Effect outcomes q step outcome q' →
      Keeps (outcomes ++ [outcome]) q') :
    ∀ (steps : List Step) {outcomes : List Outcome} {q : Query}, Keeps outcomes q →
      ∀ run ∈ runSteps outcomes q steps, ∃ earlier before step,
        Keeps earlier before ∧ Effect earlier before step run.1 run.2 := by
  intro steps
  induction steps with
  | nil =>
      intro outcomes q _ run hrun
      simp [runSteps] at hrun
  | cons first rest ih =>
      intro outcomes q keeps run hrun
      have effect := effect_of_run outcomes q first
      rcases List.mem_cons.mp hrun with rfl | hrun
      · exact ⟨outcomes, q, first, keeps, effect⟩
      · exact ih (step keeps effect) run hrun

/-- What every step keeps, all runs keep: it holds of each outcome among the earlier ones. -/
theorem runSteps_keeps (Keeps : List Outcome → Query → Prop)
    (step : ∀ {outcomes q step outcome q'}, Keeps outcomes q → Effect outcomes q step outcome q' →
      Keeps (outcomes ++ [outcome]) q') (steps : List Step) {outcomes : List Outcome} {q : Query}
    (keeps : Keeps outcomes q) :
    ∀ run ∈ runSteps outcomes q steps, ∃ earlier, Keeps (earlier ++ [run.1]) run.2 := by
  intro run hrun
  obtain ⟨earlier, before, first, kept, effect⟩ := runSteps_effects Keeps step steps keeps run hrun
  exact ⟨earlier, step kept effect⟩

/-! ## Scripts in parts -/

def outcomesOf (outcomes : List Outcome) (q : Query) (steps : List Step) : List Outcome :=
  (runSteps outcomes q steps).map Prod.fst

def queryAfter : List Outcome → Query → List Step → Query
  | _, q, [] => q
  | outcomes, q, step :: rest =>
      queryAfter (outcomes ++ [(step.run outcomes q).1]) (step.run outcomes q).2 rest

theorem runSteps_cons (outcomes : List Outcome) (q : Query) (step : Step) (rest : List Step) :
    runSteps outcomes q (step :: rest) = step.run outcomes q ::
      runSteps (outcomes ++ [(step.run outcomes q).1]) (step.run outcomes q).2 rest := rfl

theorem length_outcomesOf : ∀ (steps : List Step) (outcomes : List Outcome) (q : Query),
    (outcomesOf outcomes q steps).length = steps.length := by
  intro steps
  induction steps with
  | nil => intro outcomes q; rfl
  | cons step rest ih =>
      intro outcomes q
      rw [outcomesOf, runSteps_cons, List.map_cons, List.length_cons, List.length_cons]
      exact congrArg (· + 1) (ih _ _)

theorem runSteps_append (later : List Step) : ∀ (earlier : List Step) (outcomes : List Outcome)
    (q : Query), runSteps outcomes q (earlier ++ later) = runSteps outcomes q earlier ++
      runSteps (outcomes ++ outcomesOf outcomes q earlier) (queryAfter outcomes q earlier) later := by
  intro earlier
  induction earlier with
  | nil => intro outcomes q; simp [outcomesOf, runSteps, queryAfter]
  | cons step rest ih =>
      intro outcomes q
      rw [List.cons_append, runSteps_cons, runSteps_cons, List.cons_append, ih, queryAfter,
        outcomesOf, outcomesOf, runSteps_cons, List.map_cons, List.append_assoc,
        List.singleton_append]

theorem script_keeps (Keeps : List Outcome → Query → Prop)
    (step : ∀ {outcomes q step outcome q'}, Keeps outcomes q → Effect outcomes q step outcome q' →
      Keeps (outcomes ++ [outcome]) q') :
    ∀ (steps : List Step) {outcomes : List Outcome} {q : Query}, Keeps outcomes q →
      Keeps (outcomes ++ outcomesOf outcomes q steps) (queryAfter outcomes q steps) := by
  intro steps
  induction steps with
  | nil => intro outcomes q keeps; simpa [outcomesOf, runSteps, queryAfter] using keeps
  | cons first rest ih =>
      intro outcomes q keeps
      have later := ih (step keeps (effect_of_run outcomes q first))
      rw [List.append_assoc] at later
      exact later

end CatalogSearch.Sql
