import CatalogSearch.Proofs.Sql.Names

/-!
# What a query has fetched

Whatever a script does to a query, it keeps its root and its graph, and each fetch is of the entity
that another relationship of the root leads to (`fetches_of_runSteps`).
-/

set_option autoImplicit false

namespace CatalogSearch.Sql

def labelOf (key column : String) : String := key ++ "__" ++ column

/-- A query for the root whose fetches are the ends of different relationships of it. -/
structure Query.Fetches (g : EntityGraph) (root : Entity) (q : Query) : Prop where
  ofGraph : q.graph = g
  ofRoot : q.root = root
  keys : (q.fetched.map Prod.fst).Nodup
  links : ∀ f ∈ q.fetched, ∃ via, root.relationship? f.1 = .ok via ∧
    g.entity? via.target = .ok f.2.entity

variable {g : EntityGraph} {root : Entity} {q : Query}

theorem fetches_of_start? {entity : String} (h : Query.start? g entity = .ok q) :
    q.Fetches g q.root := by
  obtain ⟨root, _, rfl⟩ := start?_eq_ok.mp h
  exact ⟨rfl, rfl, by simp, by simp⟩

theorem Query.Fetches.withFetch (h : q.Fetches g root) {relationship : String}
    (fresh : q.fetched.lookup relationship = none) {via : Relationship}
    (known : q.root.relationship? relationship = .ok via) {target : Entity}
    (found : q.graph.entity? via.target = .ok target) (qualifier : Alias) :
    (q.withFetch relationship via ⟨target, qualifier⟩).Fetches g root := by
  refine ⟨h.ofGraph, h.ofRoot, ?_, ?_⟩
  · simp only [Query.withFetch, List.map_append, List.map_cons, List.map_nil]
    refine List.nodup_append.mpr ⟨h.keys, by simp, ?_⟩
    rintro key hmem _ hlast rfl
    rw [List.mem_singleton.mp hlast] at hmem
    obtain ⟨position, hposition⟩ := exists_lookup_of_mem hmem
    rw [fresh] at hposition
    cases hposition
  · intro f hf
    rcases List.mem_append.mp hf with hf | hf
    · exact h.links f hf
    · obtain rfl := List.mem_singleton.mp hf
      exact ⟨via, h.ofRoot ▸ known, h.ofGraph ▸ found⟩

theorem fetches_of_effect {outcomes : List Outcome} {step : Step} {outcome : Outcome} {q' : Query}
    (h : q.Fetches g root) (effect : Effect outcomes q step outcome q') : q'.Fetches g root := by
  cases effect with
  | fetch fresh known toOne found => exact h.withFetch fresh known found _
  | join | distinct | strayed => exact ⟨h.ofGraph, h.ofRoot, h.keys, h.links⟩
  | _ => exact h

theorem fetches_of_runSteps {entity : String} (h : Query.start? g entity = .ok q)
    (steps : List Step) : ∀ run ∈ runSteps [] q steps, run.2.Fetches g q.root := by
  intro run hrun
  obtain ⟨_, fetches⟩ := runSteps_keeps (fun _ q' => q'.Fetches g q.root) fetches_of_effect steps
    (fetches_of_start? h) run hrun
  exact fetches

theorem Query.Fetches.exists_column (h : q.Fetches g root) (hg : g.Constructed)
    (hroot : root ∈ g.entities) {f : String × Position} (hf : f ∈ q.fetched) :
    ∃ column, column ∈ f.2.entity.columns := by
  obtain ⟨via, known, found⟩ := h.links f hf
  obtain ⟨target, link⟩ := hg.link hroot (EntityGraph.relationship?_eq_ok.mp known)
  obtain rfl : target = f.2.entity := Except.ok.inj (link.found.symm.trans found)
  exact ⟨via.remoteColumn, link.remoteColumn⟩

end CatalogSearch.Sql
